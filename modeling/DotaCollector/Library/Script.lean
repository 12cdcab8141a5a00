import Mathlib.Logic.Basic

/-!
# Scripts of database statements

An asynchronous job alternates between statements it issues, questions it asks the database, and
computation of its own. A script is the tree of everything it may do: a statement with what
follows, a question with what follows each answer, an ordinary return, or an exception. Scripts
compose as the job's own code does. A property of all the statements a script may ever issue, and
the weakest precondition of a script under a contract, are proved along that composition.
-/

/-- A job which issues statements, asks questions and returns a value. -/
inductive Script (Statement Query : Type) (Answer : Query → Type) (Value : Type) : Type where
  | result (value : Value)
  | throw
  | write (statement : Statement) (next : Script Statement Query Answer Value)
  | ask (query : Query) (next : Answer query → Script Statement Query Answer Value)

namespace Script

variable {Statement Query : Type} {Answer : Query → Type} {Value Result : Type}

/-- Run one script, then another on its value; an exception ends both. -/
def bind (script : Script Statement Query Answer Value)
    (after : Value → Script Statement Query Answer Result) :
    Script Statement Query Answer Result :=
  match script with
  | .result value => after value
  | .throw => .throw
  | .write statement next => .write statement (next.bind after)
  | .ask query next => .ask query fun answer => (next answer).bind after

instance : Monad (Script Statement Query Answer) where
  pure := .result
  bind := bind

/-- Issue one statement. -/
def issue (statement : Statement) : Script Statement Query Answer Unit :=
  .write statement (.result ())

/-- Ask one question. -/
def query (question : Query) : Script Statement Query Answer (Answer question) :=
  .ask question .result

/-- Run a script only under a condition. -/
def runIf (condition : Bool) (script : Script Statement Query Answer Unit) :
    Script Statement Query Answer Unit :=
  if condition then script else .result ()

/-- Run a script for each item in turn. -/
def forEach {Item : Type} (body : Item → Script Statement Query Answer Unit) :
    List Item → Script Statement Query Answer Unit
  | [] => .result ()
  | item :: items => (body item).bind fun _ => forEach body items

/-! ## What a script may issue -/

/-- Whatever the answers, every statement the script issues is allowed. -/
def Issues (allowed : Statement → Prop) : Script Statement Query Answer Value → Prop
  | .result _ => True
  | .throw => True
  | .write statement next => allowed statement ∧ next.Issues allowed
  | .ask _ next => ∀ answer, (next answer).Issues allowed

variable {allowed : Statement → Prop}

@[simp]
theorem issues_pure (value : Value) :
    (pure value : Script Statement Query Answer Value).Issues allowed := trivial

@[simp]
theorem issues_throw : (throw : Script Statement Query Answer Value).Issues allowed := trivial

theorem issues_issue {statement : Statement} (holds : allowed statement) :
    (issue statement : Script Statement Query Answer Unit).Issues allowed :=
  ⟨holds, trivial⟩

theorem issues_query (question : Query) :
    (query question : Script Statement Query Answer _).Issues allowed :=
  fun _ => trivial

theorem issues_bind {script : Script Statement Query Answer Value}
    {after : Value → Script Statement Query Answer Result} (opening : script.Issues allowed)
    (following : ∀ value, (after value).Issues allowed) :
    (script >>= after).Issues allowed := by
  change (script.bind after).Issues allowed
  induction script with
  | result value => exact following value
  | throw => trivial
  | write statement next ih => exact ⟨opening.1, ih opening.2⟩
  | ask question next ih => exact fun answer => ih answer (opening answer)

theorem issues_of_forall {script : Script Statement Query Answer Value}
    (all : ∀ statement, allowed statement) : script.Issues allowed := by
  induction script with
  | result value => trivial
  | throw => trivial
  | write statement next ih => exact ⟨all statement, ih⟩
  | ask question next ih => exact fun answer => ih answer

theorem issues_runIf {condition : Bool} {script : Script Statement Query Answer Unit}
    (issues : script.Issues allowed) : (runIf condition script).Issues allowed := by
  cases condition with
  | false => trivial
  | true => exact issues

theorem issues_forEach {Item : Type} {body : Item → Script Statement Query Answer Unit}
    {items : List Item} (turn : ∀ item ∈ items, (body item).Issues allowed) :
    (forEach body items).Issues allowed := by
  induction items with
  | nil => trivial
  | cons item items ih =>
      refine issues_bind (turn item (List.mem_cons_self ..)) fun _ => ?_
      exact ih fun other member => turn other (List.mem_cons_of_mem _ member)

/-! ## What a script ensures -/

/-- How statements and answers move the state a script reasons about, and what the script owes
before it may ask a question. -/
structure Contract (Statement Query : Type) (Answer : Query → Type) (State : Type) where
  write : Statement → State → State → Prop
  owes : Query → State → Prop
  answer : (query : Query) → Answer query → State → State → Prop

variable {State : Type} {contract : Contract Statement Query Answer State}

/-- From a state, the script pays what it owes at each question, and its value and the state at
its end satisfy the postcondition; an exception promises nothing. -/
def Ensures (contract : Contract Statement Query Answer State)
    (post : Value → State → Prop) : Script Statement Query Answer Value → State → Prop
  | .result value, state => post value state
  | .throw, _ => True
  | .write statement next, state =>
      ∀ after, contract.write statement state after → next.Ensures contract post after
  | .ask query next, state =>
      contract.owes query state ∧
        ∀ answer after, contract.answer query answer state after →
          (next answer).Ensures contract post after

variable {post : Value → State → Prop} {state : State}

@[simp]
theorem ensures_pure {value : Value} :
    (pure value : Script Statement Query Answer Value).Ensures contract post state ↔
      post value state :=
  Iff.rfl

@[simp]
theorem ensures_bind {script : Script Statement Query Answer Value}
    {after : Value → Script Statement Query Answer Result} {post : Result → State → Prop} :
    (script >>= after).Ensures contract post state ↔
      script.Ensures contract (fun value => (after value).Ensures contract post) state := by
  change (script.bind after).Ensures contract post state ↔ _
  induction script generalizing state with
  | result value => exact Iff.rfl
  | throw => exact Iff.rfl
  | write statement next ih => exact forall_congr' fun _ => imp_congr_right fun _ => ih
  | ask question next ih =>
      exact and_congr_right fun _ =>
        forall_congr' fun answer => forall_congr' fun _ => imp_congr_right fun _ => ih answer

theorem Ensures.mono {script : Script Statement Query Answer Value}
    {weaker : Value → State → Prop} (ensures : script.Ensures contract post state)
    (implies : ∀ value state, post value state → weaker value state) :
    script.Ensures contract weaker state := by
  induction script generalizing state with
  | result value => exact implies value state ensures
  | throw => trivial
  | write statement next ih => exact fun after moved => ih (ensures after moved)
  | ask question next ih =>
      exact ⟨ensures.1, fun answer after moved => ih answer (ensures.2 answer after moved)⟩

/-- Allowed statements and answers which keep an invariant make the script keep it. -/
theorem Issues.ensures {script : Script Statement Query Answer Value} {inv : State → Prop}
    (issues : script.Issues allowed)
    (writes : ∀ statement state after, allowed statement → inv state →
      contract.write statement state after → inv after)
    (answers : ∀ question answer state after, inv state →
      contract.answer question answer state after → inv after)
    (pays : ∀ question state, inv state → contract.owes question state) (start : inv state) :
    script.Ensures contract (fun _ => inv) state := by
  induction script generalizing state with
  | result value => exact start
  | throw => trivial
  | write statement next ih =>
      exact fun after moved => ih issues.2 (writes statement state after issues.1 start moved)
  | ask question next ih =>
      exact ⟨pays question state start, fun answer after moved =>
        ih answer (issues answer) (answers question answer state after start moved)⟩

theorem ensures_runIf {condition : Bool} {script : Script Statement Query Answer Unit}
    {post : Unit → State → Prop} (runs : condition = true → script.Ensures contract post state)
    (skips : condition = false → post () state) :
    (runIf condition script).Ensures contract post state := by
  cases condition with
  | false => exact skips rfl
  | true => exact runs rfl

/-! ## Running a script by itself -/

/-- Run a script to its end on a state which nobody else changes; a statement may fail. -/
def exec (write : Statement → State → Option State)
    (answer : (query : Query) → State → Answer query) :
    Script Statement Query Answer Value → State → Option (Value × State)
  | .result value, state => some (value, state)
  | .throw, _ => none
  | .write statement next, state =>
      write statement state >>= fun after => (next).exec write answer after
  | .ask query next, state => (next (answer query state)).exec write answer state

/-- The contract of a script which runs by itself. -/
def alone (write : Statement → State → Option State)
    (answer : (query : Query) → State → Answer query) : Contract Statement Query Answer State where
  write statement state after := write statement state = some after
  owes _ _ := True
  answer query value state after := value = answer query state ∧ after = state

section Alone

variable {write : Statement → State → Option State}
  {answer : (query : Query) → State → Answer query} {post : Value → State → Prop} {state : State}

theorem ensures_issue_bind {statement : Statement}
    {next : Unit → Script Statement Query Answer Value} :
    (issue statement >>= next).Ensures (alone write answer) post state ↔
      ∀ after, write statement state = some after →
        (next ()).Ensures (alone write answer) post after :=
  ensures_bind

theorem ensures_query_bind {question : Query}
    {next : Answer question → Script Statement Query Answer Value} :
    (query question >>= next).Ensures (alone write answer) post state ↔
      (next (answer question state)).Ensures (alone write answer) post state := by
  refine ensures_bind.trans ⟨fun ensures => ensures.2 _ _ ⟨rfl, rfl⟩, fun ensures => ⟨trivial, ?_⟩⟩
  rintro value after ⟨rfl, rfl⟩
  exact ensures

/-- What a script ensures by itself holds of its run. -/
theorem Ensures.exec {script : Script Statement Query Answer Value} {value : Value}
    {after : State} (ensures : script.Ensures (alone write answer) post state)
    (run : script.exec write answer state = some (value, after)) : post value after := by
  induction script generalizing state with
  | result returned =>
      cases run
      exact ensures
  | throw => cases run
  | write statement next ih =>
      obtain ⟨middle, wrote, rest⟩ := Option.bind_eq_some_iff.mp run
      exact ih (ensures middle wrote) rest
  | ask question next ih =>
      exact ih _ (ensures.2 _ state ⟨rfl, rfl⟩) run

end Alone

end Script
