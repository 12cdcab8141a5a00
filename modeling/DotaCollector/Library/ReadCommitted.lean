import Mathlib.Data.Option.Basic
import Mathlib.Logic.Function.Basic
import DotaCollector.Library.Schedule
import DotaCollector.Library.Script

/-!
# Transactions under READ COMMITTED

A transaction runs a script of statements and questions. It sees its own rows, and for every
other key the row which is committed at that moment. A statement locks the keys it touches, and
waits while another transaction holds one of them; a commit publishes the own rows and an abort
forgets them. Rows are never deleted.

The rules below are about one key: nobody else has an own row where a transaction has one, and a
property which every statement keeps on a row, once committed, stays committed and visible.
-/

namespace ReadCommitted

/-- What a statement leaves: the keys it locks, and the rows under them. -/
structure Effect {Key : Type} (Row : Key → Type) where
  touched : List Key
  rows : ∀ key, Option (Row key)

/-- What statements do and questions return, on the rows a transaction sees. The scene is what
lies outside the rows. -/
structure Database {Key : Type} (Row : Key → Type) (Scene Statement Query : Type)
    (Answer : Query → Type) where
  effect : Statement → Scene → (∀ key, Option (Row key)) → Option (Effect Row)
  answer : (query : Query) → Scene → (∀ key, Option (Row key)) → Answer query

/-- An open transaction: its job, what remains of its script, the statements it has issued, the
newest first, and its own rows. -/
structure Tx {Key : Type} (Row : Key → Type) (Job Statement Query : Type)
    (Answer : Query → Type) where
  job : Job
  script : Script Statement Query Answer Unit
  issued : List Statement := []
  own : ∀ key, Option (Row key) := fun _ => none

/-- The committed rows, the holder of each lock, and the open transactions. -/
structure State {Key : Type} (Row : Key → Type) (Job Statement Query : Type)
    (Answer : Query → Type) where
  committed : ∀ key, Option (Row key)
  locks : Key → Option Nat := fun _ => none
  txs : Nat → Option (Tx Row Job Statement Query Answer) := fun _ => none

/-- What may happen next: a transaction starts, takes one step, commits, or aborts. -/
inductive Event (Job Scene : Type) where
  | start (id : Nat) (job : Job)
  | step (id : Nat) (scene : Scene)
  | commit (id : Nat)
  | abort (id : Nat)

variable {Key : Type} [DecidableEq Key] {Row : Key → Type} {Job Scene Statement Query : Type}
  {Answer : Query → Type}

/-- A transaction after one of its statements. -/
def Tx.wrote (tx : Tx Row Job Statement Query Answer) (statement : Statement)
    (rest : Script Statement Query Answer Unit) (effect : Effect Row) :
    Tx Row Job Statement Query Answer where
  job := tx.job
  script := rest
  issued := statement :: tx.issued
  own key := if key ∈ effect.touched then effect.rows key else tx.own key

theorem Tx.own_wrote (tx : Tx Row Job Statement Query Answer) (statement : Statement)
    (rest : Script Statement Query Answer Unit) (effect : Effect Row) (key : Key) :
    (tx.wrote statement rest effect).own key =
      if key ∈ effect.touched then effect.rows key else tx.own key := rfl

namespace State

/-- The row a transaction sees under a key. -/
def visible (state : State Row Job Statement Query Answer)
    (tx : Tx Row Job Statement Query Answer) (key : Key) : Option (Row key) :=
  (tx.own key).or (state.committed key)

/-- A transaction's record is replaced. -/
def put (state : State Row Job Statement Query Answer) (id : Nat)
    (tx : Tx Row Job Statement Query Answer) : State Row Job Statement Query Answer :=
  { state with txs := Function.update state.txs id (some tx) }

/-- The keys are not locked by another transaction. -/
def free (state : State Row Job Statement Query Answer) (id : Nat) (keys : List Key) : Bool :=
  keys.all fun key => state.locks key = none || state.locks key = some id

/-- The state after a statement of a transaction. -/
def write (state : State Row Job Statement Query Answer) (id : Nat)
    (tx : Tx Row Job Statement Query Answer) (statement : Statement)
    (rest : Script Statement Query Answer Unit) (effect : Effect Row) :
    State Row Job Statement Query Answer where
  committed := state.committed
  locks key := if key ∈ effect.touched then some id else state.locks key
  txs := Function.update state.txs id (some (tx.wrote statement rest effect))

/-- The state after a transaction has ended and its locks are released. -/
def close (state : State Row Job Statement Query Answer) (id : Nat)
    (committed : ∀ key, Option (Row key)) : State Row Job Statement Query Answer where
  committed := committed
  locks key := if state.locks key = some id then none else state.locks key
  txs := Function.update state.txs id none

end State

variable (db : Database Row Scene Statement Query Answer)
  (code : Job → Script Statement Query Answer Unit)

/-- One step of the script of a transaction. -/
def stepTx (state : State Row Job Statement Query Answer) (id : Nat) (scene : Scene)
    (tx : Tx Row Job Statement Query Answer) : Option (State Row Job Statement Query Answer) :=
  match tx.script with
  | .result _ => none
  | .throw => none
  | .ask query rest =>
      some (state.put id { tx with script := rest (db.answer query scene (state.visible tx)) })
  | .write statement rest =>
      match db.effect statement scene (state.visible tx) with
      | none => none
      | some effect =>
          if state.free id effect.touched then some (state.write id tx statement rest effect)
          else none

/-- The state after an event. -/
def next (state : State Row Job Statement Query Answer) :
    Event Job Scene → Option (State Row Job Statement Query Answer)
  | .start id job =>
      match state.txs id with
      | none => some (state.put id { job, script := code job })
      | some _ => none
  | .step id scene => state.txs id >>= stepTx db state id scene
  | .commit id =>
      match state.txs id with
      | none => none
      | some tx =>
          match tx.script with
          | .result _ => some (state.close id (state.visible tx))
          | _ => none
  | .abort id => (state.txs id).map fun _ => state.close id state.committed

/-! ## What an event can do -/

/-- The moves of the system. -/
inductive Moves (state : State Row Job Statement Query Answer) :
    Event Job Scene → State Row Job Statement Query Answer → Prop where
  | start {id : Nat} {job : Job} (idle : state.txs id = none) :
      Moves state (.start id job) (state.put id { job, script := code job })
  | ask {id : Nat} {scene : Scene} {tx : Tx Row Job Statement Query Answer} {query : Query}
      {rest : Answer query → Script Statement Query Answer Unit}
      (running : state.txs id = some tx) (asks : tx.script = .ask query rest) :
      Moves state (.step id scene)
        (state.put id { tx with script := rest (db.answer query scene (state.visible tx)) })
  | write {id : Nat} {scene : Scene} {tx : Tx Row Job Statement Query Answer}
      {statement : Statement} {rest : Script Statement Query Answer Unit} {effect : Effect Row}
      (running : state.txs id = some tx) (issues : tx.script = .write statement rest)
      (leaves : db.effect statement scene (state.visible tx) = some effect)
      (unlocked : state.free id effect.touched) :
      Moves state (.step id scene) (state.write id tx statement rest effect)
  | commit {id : Nat} {tx : Tx Row Job Statement Query Answer}
      (running : state.txs id = some tx) (done : tx.script = .result ()) :
      Moves state (.commit id) (state.close id (state.visible tx))
  | abort {id : Nat} {tx : Tx Row Job Statement Query Answer}
      (running : state.txs id = some tx) :
      Moves state (.abort id) (state.close id state.committed)

variable {db code} {state after : State Row Job Statement Query Answer} {event : Event Job Scene}

theorem moves_of_next (step : next db code state event = some after) :
    Moves db code state event after := by
  cases event with
  | start id job =>
      simp only [next] at step
      split at step
      · next idle =>
          cases step
          exact .start idle
      · cases step
  | step id scene =>
      obtain ⟨tx, running, step⟩ := Option.bind_eq_some_iff.mp step
      rw [stepTx] at step
      split at step
      · cases step
      · cases step
      · next asks =>
          cases step
          exact .ask running asks
      · next issues =>
          split at step
          · cases step
          · next leaves =>
              obtain ⟨unlocked, ⟨⟩⟩ := Option.ite_none_right_eq_some.mp step
              exact .write running issues leaves unlocked
  | commit id =>
      simp only [next] at step
      split at step
      · cases step
      · next running =>
          split at step
          · next done =>
              cases step
              exact .commit running done
          · cases step
  | abort id =>
      obtain ⟨tx, running, ⟨⟩⟩ := Option.map_eq_some_iff.mp step
      exact .abort running

/-! ## Locks -/

/-- Every own row is under a lock of its transaction. -/
def Locked (state : State Row Job Statement Query Answer) : Prop :=
  ∀ id tx, state.txs id = some tx → ∀ key row, tx.own key = some row → state.locks key = some id

omit [DecidableEq Key] in
/-- Two transactions never have own rows under one key. -/
theorem Locked.own_eq_none (locked : Locked state) {id other : Nat}
    {tx rival : Tx Row Job Statement Query Answer} (running : state.txs id = some tx)
    (rivals : state.txs other = some rival) (ne : other ≠ id) {key : Key} {row : Row key}
    (own : tx.own key = some row) : rival.own key = none := by
  cases others : rival.own key with
  | none => rfl
  | some taken =>
      have mine := locked id tx running key row own
      have theirs := locked other rival rivals key taken others
      exact absurd (Option.some.inj (theirs.symm.trans mine)) ne

omit [DecidableEq Key] in
/-- A transaction which is open after another one's record was replaced, or is that record. -/
theorem running_update {id other : Nat} {tx : Option (Tx Row Job Statement Query Answer)}
    {found : Tx Row Job Statement Query Answer}
    (running : Function.update state.txs id tx other = some found) :
    other = id ∧ tx = some found ∨ other ≠ id ∧ state.txs other = some found := by
  by_cases same : other = id
  · subst same
    rw [Function.update_self] at running
    exact .inl ⟨rfl, running⟩
  · rw [Function.update_of_ne same] at running
    exact .inr ⟨same, running⟩

omit [DecidableEq Key] in
private theorem locked_put (locked : Locked state) {id : Nat}
    {tx : Tx Row Job Statement Query Answer}
    (owns : ∀ key row, tx.own key = some row → state.locks key = some id) :
    Locked (state.put id tx) := by
  intro other found running key row own
  rcases running_update running with ⟨rfl, ⟨⟩⟩ | ⟨-, before⟩
  · exact owns key row own
  · exact locked other found before key row own

omit [DecidableEq Key] in
private theorem locked_close (locked : Locked state) (id : Nat)
    (committed : ∀ key, Option (Row key)) : Locked (state.close id committed) := by
  intro other found running key row own
  rcases running_update running with ⟨-, ⟨⟩⟩ | ⟨ne, before⟩
  have held := locked other found before key row own
  simp [State.close, held, ne]

private theorem locked_write (locked : Locked state) {id : Nat}
    {tx : Tx Row Job Statement Query Answer} (running : state.txs id = some tx)
    (statement : Statement) (rest : Script Statement Query Answer Unit) {effect : Effect Row}
    (unlocked : state.free id effect.touched) :
    Locked (state.write id tx statement rest effect) := by
  intro other found later key row own
  change (if key ∈ effect.touched then some id else state.locks key) = some other
  rcases running_update later with ⟨rfl, ⟨⟩⟩ | ⟨ne, before⟩
  · rw [Tx.own_wrote] at own
    by_cases touched : key ∈ effect.touched
    · rw [if_pos touched]
    · rw [if_neg touched] at own ⊢
      exact locked other tx running key row own
  · have held := locked other found before key row own
    have untouched : key ∉ effect.touched := by
      intro touched
      have mine := List.all_eq_true.mp unlocked key touched
      simp [held, ne] at mine
    rw [if_neg untouched]
    exact held

theorem Locked.next (locked : Locked state)
    (step : ReadCommitted.next db code state event = some after) : Locked after := by
  cases moves_of_next step with
  | start idle => exact locked_put locked (by simp)
  | ask running asks => exact locked_put locked fun key row own => locked _ _ running key row own
  | write running issues leaves unlocked => exact locked_write locked running _ _ unlocked
  | commit running done => exact locked_close locked _ _
  | abort running => exact locked_close locked _ _

/-! ## A property of one row -/

section Property

variable {key : Key} {holds : Row key → Prop}

/-- A row under the key has the property. -/
def Has (holds : Row key → Prop) (row : Option (Row key)) : Prop :=
  ∃ value, row = some value ∧ holds value

/-- The statement keeps the property of a row it sees. -/
def Database.Keeps (db : Database Row Scene Statement Query Answer) (holds : Row key → Prop)
    (statement : Statement) : Prop :=
  ∀ scene visible effect, db.effect statement scene visible = some effect →
    key ∈ effect.touched → Has holds (visible key) → Has holds (effect.rows key)

/-- The statement an event is about to issue. -/
def Due (state : State Row Job Statement Query Answer) (event : Event Job Scene)
    (statement : Statement) : Prop :=
  ∃ id scene tx rest,
    event = .step id scene ∧ state.txs id = some tx ∧ tx.script = .write statement rest

/-- Once committed, the property holds of every own row. -/
def Stable (holds : Row key → Prop) (state : State Row Job Statement Query Answer) : Prop :=
  Has holds (state.committed key) →
    ∀ id tx, state.txs id = some tx → ∀ row, tx.own key = some row → holds row

omit [DecidableEq Key] in
/-- What is committed under a stable property, every transaction sees. -/
theorem Stable.has_visible (stable : Stable holds state)
    (committed : Has holds (state.committed key)) {id : Nat}
    {tx : Tx Row Job Statement Query Answer} (running : state.txs id = some tx) :
    Has holds (state.visible tx key) := by
  cases own : tx.own key with
  | none => simpa [State.visible, own] using committed
  | some row => exact ⟨row, by simp [State.visible, own], stable committed id tx running row own⟩

/-- A transaction sees what its statement leaves under a locked key. -/
theorem visible_write_of_touched {id : Nat} {tx : Tx Row Job Statement Query Answer}
    {statement : Statement} {rest : Script Statement Query Answer Unit} {effect : Effect Row}
    {row : Row key} (touched : key ∈ effect.touched) (left : effect.rows key = some row) :
    (state.write id tx statement rest effect).visible (tx.wrote statement rest effect) key =
      some row := by
  simp [State.visible, Tx.wrote, touched, left]

/-- A transaction still sees the property after a statement which keeps it. -/
theorem has_visible_write (id : Nat) {scene : Scene} {tx : Tx Row Job Statement Query Answer}
    {statement : Statement} (rest : Script Statement Query Answer Unit) {effect : Effect Row}
    (leaves : db.effect statement scene (state.visible tx) = some effect)
    (keeps : db.Keeps holds statement) (sees : Has holds (state.visible tx key)) :
    Has holds
      ((state.write id tx statement rest effect).visible (tx.wrote statement rest effect) key) := by
  by_cases touched : key ∈ effect.touched
  · obtain ⟨row, left, has⟩ := keeps scene _ effect leaves touched sees
    exact ⟨row, visible_write_of_touched touched left, has⟩
  · simpa [State.visible, State.write, Tx.wrote, touched] using sees

/-- The committed property stays committed: whoever commits sees it. -/
theorem Stable.committed_next (stable : Stable holds state)
    (committed : Has holds (state.committed key))
    (step : ReadCommitted.next db code state event = some after) :
    Has holds (after.committed key) := by
  cases moves_of_next step with
  | commit running done => exact stable.has_visible committed running
  | start | ask | write | abort => exact committed

/-- What a transaction sees survives the steps of the others. -/
theorem Stable.visible_next (stable : Stable holds state)
    {tx : Tx Row Job Statement Query Answer} (sees : Has holds (state.visible tx key))
    (step : ReadCommitted.next db code state event = some after) :
    Has holds (after.visible tx key) := by
  cases own : tx.own key with
  | none =>
      have committed : Has holds (state.committed key) := by
        simpa [State.visible, own] using sees
      simpa [State.visible, own] using stable.committed_next committed step
  | some row => simpa [State.visible, own] using sees

/-- A property which the due statement keeps stays stable. -/
theorem Stable.next (stable : Stable holds state) (locked : Locked state)
    (keeps : ∀ statement, Due state event statement → db.Keeps holds statement)
    (step : ReadCommitted.next db code state event = some after) : Stable holds after := by
  cases moves_of_next step with
  | start idle =>
      intro committed other tx running row own
      rcases running_update running with ⟨rfl, ⟨⟩⟩ | ⟨-, before⟩
      · cases own
      · exact stable committed other tx before row own
  | ask asker asks =>
      intro committed other tx running row own
      rcases running_update running with ⟨rfl, ⟨⟩⟩ | ⟨-, before⟩
      · exact stable committed _ _ asker row own
      · exact stable committed other tx before row own
  | @write id scene tx statement rest effect writing issues leaves unlocked =>
      intro committed other found running row own
      rcases running_update running with ⟨rfl, ⟨⟩⟩ | ⟨-, before⟩
      · rw [Tx.own_wrote] at own
        by_cases touched : key ∈ effect.touched
        · rw [if_pos touched] at own
          have sees := stable.has_visible committed writing
          obtain ⟨value, left, has⟩ :=
            keeps statement ⟨_, _, _, _, rfl, writing, issues⟩ scene _ effect leaves touched sees
          cases own.symm.trans left
          exact has
        · rw [if_neg touched] at own
          exact stable committed _ tx writing row own
      · exact stable committed other found before row own
  | @commit id tx committing done =>
      intro committed other found running row own
      rcases running_update running with ⟨-, ⟨⟩⟩ | ⟨ne, before⟩
      cases mine : tx.own key with
      | none =>
          have already : Has holds (state.committed key) := by
            simpa [State.close, State.visible, mine] using committed
          exact stable already other found before row own
      | some published =>
          cases (locked.own_eq_none committing before ne mine).symm.trans own
  | abort aborting =>
      intro committed other found running row own
      rcases running_update running with ⟨-, ⟨⟩⟩ | ⟨-, before⟩
      exact stable committed other found before row own

omit [DecidableEq Key] in
/-- A commit of an own row with the property: no other transaction has an own row there. -/
theorem stable_of_commit (locked : Locked state) {id : Nat}
    {tx : Tx Row Job Statement Query Answer} {row : Row key}
    (running : state.txs id = some tx) (own : tx.own key = some row) :
    Stable holds (state.close id (state.visible tx)) := by
  intro _ other found rivals value theirs
  rcases running_update rivals with ⟨-, ⟨⟩⟩ | ⟨ne, before⟩
  cases (locked.own_eq_none running before ne own).symm.trans theirs

end Property

/-! ## What scripts ensure along their own statements -/

section Progress

variable {Progress : Type}

/-- The contract of a script which only watches its own statements. -/
def watching (advance : Statement → Progress → Progress) :
    Script.Contract Statement Query Answer Progress where
  write statement before after := after = advance statement before
  owes _ _ := True
  answer _ _ before after := after = before

/-- What every statement keeps, a script which only watches its own statements keeps. -/
theorem ensures_watching {advance : Statement → Progress → Progress} {inv : Progress → Prop}
    {Value : Type} {script : Script Statement Query Answer Value} {progress : Progress}
    (keeps : ∀ statement progress, inv progress → inv (advance statement progress))
    (start : inv progress) : script.Ensures (watching advance) (fun _ => inv) progress := by
  have everything : script.Issues fun _ => True := Script.issues_of_forall fun _ => trivial
  refine everything.ensures ?_ ?_ (fun _ _ _ => trivial) start
  · rintro statement before after - held rfl
    exact keeps statement before held
  · rintro query answer before after held rfl
    exact held

/-- What a transaction has watched of its own statements. -/
def Tx.progress (advance : Statement → Progress → Progress) (start : Progress)
    (tx : Tx Row Job Statement Query Answer) : Progress :=
  tx.issued.foldr advance start

/-- What remains of every script still ensures what its job promises. -/
def Promised (advance : Statement → Progress → Progress) (start : Progress)
    (promise : Job → Progress → Prop) (state : State Row Job Statement Query Answer) : Prop :=
  ∀ id tx, state.txs id = some tx →
    tx.script.Ensures (watching advance) (fun _ => promise tx.job) (tx.progress advance start)

theorem Promised.next {advance : Statement → Progress → Progress} {start : Progress}
    {promise : Job → Progress → Prop} (promised : Promised advance start promise state)
    (codes : ∀ job, (code job).Ensures (watching advance) (fun _ => promise job) start)
    (step : ReadCommitted.next db code state event = some after) :
    Promised advance start promise after := by
  intro other found running
  cases moves_of_next step with
  | @start id job idle =>
      rcases running_update running with ⟨rfl, ⟨⟩⟩ | ⟨-, before⟩
      · exact codes job
      · exact promised other found before
  | @ask id scene tx query rest asking asks =>
      rcases running_update running with ⟨rfl, ⟨⟩⟩ | ⟨-, before⟩
      · have ensures := promised _ tx asking
        rw [asks] at ensures
        exact ensures.2 _ _ rfl
      · exact promised other found before
  | @write id scene tx statement rest effect writing issues leaves unlocked =>
      rcases running_update running with ⟨rfl, ⟨⟩⟩ | ⟨-, before⟩
      · have ensures := promised _ tx writing
        rw [issues] at ensures
        exact ensures _ rfl
      · exact promised other found before
  | commit | abort =>
      rcases running_update running with ⟨-, ⟨⟩⟩ | ⟨-, before⟩
      exact promised other found before

omit [DecidableEq Key] in
/-- At its commit, a transaction has kept its promise. -/
theorem Promised.kept {advance : Statement → Progress → Progress} {start : Progress}
    {promise : Job → Progress → Prop} (promised : Promised advance start promise state)
    {id : Nat} {tx : Tx Row Job Statement Query Answer} (running : state.txs id = some tx)
    (done : tx.script = .result ()) : promise tx.job (tx.progress advance start) := by
  have ensures := promised id tx running
  rw [done] at ensures
  exact ensures

end Progress

end ReadCommitted
