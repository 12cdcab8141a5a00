import Mathlib.Tactic.Abel
import DotaCollector.Parser.System

/-!
# What a publication publishes

Along a script the worker reasons about the rows ClickHouse holds: it knows them from the moment it
opens the demo over empty tables, as long as nobody else writes them. Under this contract a
worker publishes exactly the rows of a complete parse. The code does not establish the premise:
the cleanup before decoding is skipped on the first parse, so an attempt which ended between an
insert and its own cleanup leaves its rows to the next one.
-/

namespace DotaCollector
namespace Parser

variable {Row : Type}

/-! ## Rows of a table -/

@[simp]
theorem rowsIn_nil (table : ReplayTable) : (rowsIn table [] : StoredRows Row) = 0 := by
  funext other
  simp [rowsIn]

theorem rowsIn_append (table : ReplayTable) (front back : List Row) :
    rowsIn table (front ++ back) = rowsIn table front + rowsIn table back := by
  funext other
  by_cases same : other = table
  · simp [rowsIn, same]
  · simp [rowsIn, same]

/-- The rows the buffers hold. -/
def held (buffers : Buffers Row) : StoredRows Row
  | .bulk table => buffers table
  | .small _ => 0

/-- The rows a stream has still to emit. -/
def toEmit (stream : List (BulkTable × Row)) : StoredRows Row
  | .bulk table => emitted stream table
  | .small _ => 0

/-- The rows of some of the small tables. -/
def results (result : SmallTable → List Row) (tables : List SmallTable) : StoredRows Row
  | .bulk _ => 0
  | .small table => if table ∈ tables then result table else 0

theorem held_update (buffers : Buffers Row) (table : BulkTable) (rows : List Row) :
    held (Function.update buffers table rows) =
      held (Function.update buffers table []) + rowsIn (.bulk table) rows := by
  funext other
  cases other with
  | bulk other =>
      by_cases same : other = table
      · subst same
        simp [held, rowsIn]
      · simp [held, rowsIn, same]
  | small other => simp [held, rowsIn]

theorem held_eq (buffers : Buffers Row) (table : BulkTable) :
    held buffers =
      held (Function.update buffers table []) + rowsIn (.bulk table) (buffers table) := by
  rw [← held_update, Function.update_eq_self]

theorem held_eq_rowsIn (buffers : Buffers Row) :
    held buffers = rowsIn (.bulk .combatLog) (buffers .combatLog) +
      (rowsIn (.bulk .intervals) (buffers .intervals) +
        rowsIn (.bulk .actions) (buffers .actions)) := by
  funext other
  cases other with
  | bulk other => cases other <;> simp [held, rowsIn]
  | small other => simp [held, rowsIn]

theorem toEmit_cons (table : BulkTable) (row : Row) (stream : List (BulkTable × Row)) :
    toEmit ((table, row) :: stream) = rowsIn (.bulk table) [row] + toEmit stream := by
  funext other
  cases other with
  | bulk other =>
      by_cases same : table = other
      · subst same
        simp [toEmit, rowsIn, emitted]
      · simp [toEmit, rowsIn, emitted, same, Ne.symm same]
  | small other => simp [toEmit, rowsIn]

theorem results_cons (result : SmallTable → List Row) {table : SmallTable}
    {tables : List SmallTable} (fresh : table ∉ tables) :
    results result (table :: tables) =
      rowsIn (.small table) (result table) + results result tables := by
  funext other
  cases other with
  | bulk other => simp [results, rowsIn]
  | small other =>
      by_cases same : other = table
      · subst same
        simp [results, rowsIn, fresh]
      · simp [results, rowsIn, same]

theorem complete_eq (demo : Extraction Row) {arrival : List SmallTable}
    (all : arrival.Perm smallTables) :
    demo.complete = toEmit demo.stream + results demo.result arrival := by
  funext other
  cases other with
  | bulk other => simp [Extraction.complete, toEmit, results]
  | small other =>
      simp [Extraction.complete, toEmit, results, all.mem_iff, mem_smallTables]

/-! ## The contract of an attempt -/

/-- What an attempt knows about the rows of the match. -/
abbrev Known (Row : Type) := Option (StoredRows Row)

/-- Opening the demo, an attempt may learn that there are no rows; apart from that its knowledge
follows its own calls. -/
def Learns (outcome : Outcome) (known after : Known Row) : Query Row → Prop
  | .openDemo => after = none ∨ after = some 0
  | query => after = known.map fun rows => query.onRows outcome rows

/-- An attempt publishes the full parse, if it knows what it publishes. -/
def attempt (full : StoredRows Row) :
    Script.Contract Statement (Query Row) (fun _ => Option String) (Known Row) where
  write statement known after :=
    ∃ outcome, after = known.map fun rows => statement.onRows outcome rows
  owes query known := query = .publish → ∀ rows ∈ known, rows = full
  answer query err known after := ∃ outcome : Outcome, outcome.err = err ∧
    Learns outcome known after query

variable {full remaining : StoredRows Row} {known : Known Row}

/-- The rows an attempt knows lack the remaining rows of the full parse. -/
def Lacks (full : StoredRows Row) (known : Known Row) (remaining : StoredRows Row) : Prop :=
  ∀ rows ∈ known, rows + remaining = full

/-- Nothing is owed by a call other than the publication. -/
theorem ensures_call {query : Query Row} {post : Option String → Known Row → Prop}
    (other : query ≠ .publish)
    (learned : ∀ outcome after, Learns outcome known after query → post (outcome.err) after) :
    (call query).Ensures (attempt full) post known := by
  refine ⟨fun same => absurd same other, ?_⟩
  rintro err after ⟨outcome, rfl, moved⟩
  exact learned outcome after moved

theorem ensures_insert {table : ReplayTable} {rows : List Row}
    {post : Option String → Known Row → Prop}
    (lacks : Lacks full known (rowsIn table rows + remaining))
    (inserted : ∀ after, Lacks full after remaining → post none after)
    (failed : ∀ err after, post (some err) after) :
    (insert table rows).Ensures (attempt full) post known := by
  cases rows with
  | nil => exact inserted known (by simpa using lacks)
  | cons row rows =>
      refine ensures_call (by simp) fun outcome after moved => ?_
      cases outcome with
      | failed landed message => exact failed message after
      | done =>
          refine inserted after fun stored known => ?_
          obtain rfl : after = _ := moved
          obtain ⟨before, knew, rfl⟩ := Option.mem_map.mp known
          rw [← lacks before knew]
          exact add_assoc before _ remaining

theorem ensures_insert_any {table : ReplayTable} {rows : List Row}
    {post : Option String → Known Row → Prop} (always : ∀ err after, post err after) :
    (insert table rows).Ensures (attempt full) post known := by
  rw [insert]
  split
  · exact always none known
  · exact ensures_call (by simp) fun outcome after _ => always outcome.err after

theorem ensures_deleteTables (tables : List ReplayTable) :
    (deleteTables tables).Ensures (attempt full) (fun _ _ => True) known := by
  induction tables generalizing known with
  | nil => trivial
  | cons table tables ih => exact fun after _ => ih

theorem ensures_deletePublished (job : Claimed) :
    (deletePublished job).Ensures (attempt full) (fun _ _ => True) known := by
  rw [deletePublished]
  split
  · exact ensures_deleteTables replayTables
  · trivial

/-- Cleaning up after an error owes nothing. -/
theorem ensures_cleanup (err : String) :
    (do deleteMatch; fail err : Handler Row Unit).Ensures (attempt full) (fun _ _ => True)
      known := by
  rw [Script.ensures_bind]
  exact (ensures_deleteTables replayTables).mono fun _ _ _ _ _ => trivial

/-! ## Decoding -/

/-- Buffers which lack nothing but the remaining rows. -/
def Keeps (full remaining : StoredRows Row) :
    Except String (Buffers Row) → Known Row → Prop
  | .error _, _ => True
  | .ok buffers, known => Lacks full known (held buffers + remaining)

theorem ensures_addRow (table : BulkTable) (buffers : Buffers Row) (row : Row)
    (lacks : Lacks full known (held buffers + (rowsIn (.bulk table) [row] + remaining))) :
    (addRow table buffers row).Ensures (attempt full) (Keeps full remaining) known := by
  have split : held buffers + (rowsIn (.bulk table) [row] + remaining) =
      rowsIn (.bulk table) (buffers table ++ [row]) +
        (held (Function.update buffers table []) + remaining) := by
    rw [rowsIn_append, held_eq buffers table]
    abel
  rw [split] at lacks
  unfold addRow
  simp only
  split
  · change Lacks full known (held (Function.update buffers table (buffers table ++ [row])) + _)
    rw [held_update]
    convert lacks using 1
    abel
  · rw [Script.ensures_bind]
    exact ensures_insert lacks (fun after lacks => lacks) fun _ _ => trivial

theorem ensures_emit (table : BulkTable) (buffers : Buffers Row) (row : Row)
    (lacks : Lacks full known (held buffers + (rowsIn (.bulk table) [row] + remaining))) :
    (emit table buffers row).Ensures (attempt full) (Keeps full remaining) known := by
  cases table <;> exact ensures_addRow _ buffers row lacks

theorem ensures_decode (stream : List (BulkTable × Row)) (buffers : Buffers Row)
    (lacks : Lacks full known (held buffers + (toEmit stream + remaining))) :
    (decode stream buffers).Ensures (attempt full) (Keeps full remaining) known := by
  induction stream generalizing buffers known with
  | nil =>
      have nothing : (toEmit [] : StoredRows Row) + remaining = remaining := by
        funext table
        cases table <;> simp [toEmit, emitted]
      rw [nothing] at lacks
      rw [decode, Script.ensures_bind]
      refine ensures_call (by simp) fun outcome after moved => ?_
      cases outcome with
      | failed landed message => trivial
      | done =>
          obtain rfl : after = known := moved.trans (by simp [Query.onRows])
          exact lacks
  | cons entry stream ih =>
      obtain ⟨table, row⟩ := entry
      rw [toEmit_cons, add_assoc] at lacks
      rw [decode, Script.ensures_bind]
      refine ensures_call (by simp) fun outcome after moved => ?_
      cases outcome with
      | failed landed message => trivial
      | done =>
          obtain rfl : after = known := moved.trans (by simp [Query.onRows])
          simp only [Outcome.err, Script.ensures_bind]
          refine (ensures_emit table buffers row lacks).mono fun result after keeps => ?_
          cases result with
          | error err => trivial
          | ok buffers => exact ih buffers keeps

/-- What is known once the demo has been read to its end. -/
def Decoded (demo : Extraction Row) (arrival : List SmallTable) :
    Parsed Row → Known Row → Prop
  | .finished buffers, known =>
      Lacks demo.complete known (held buffers + results demo.result arrival)
  | _, _ => True

theorem ensures_parseReaderWithSink (demo : Extraction Row) {arrival : List SmallTable}
    (all : arrival.Perm smallTables) :
    (parseReaderWithSink demo).Ensures (attempt demo.complete) (Decoded demo arrival) known := by
  rw [parseReaderWithSink, Script.ensures_bind]
  refine ensures_call (by simp) fun outcome opened learned => ?_
  cases outcome with
  | failed landed message => trivial
  | done =>
      have empty : Lacks demo.complete opened
          (held (fun _ => []) + (toEmit demo.stream + results demo.result arrival)) := by
        have nothing : (held fun _ => [] : StoredRows Row) = 0 := by
          funext table
          cases table <;> rfl
        rw [nothing, zero_add, ← complete_eq demo all]
        intro rows knew
        obtain rfl | rfl : opened = none ∨ opened = some 0 := learned
        · cases knew
        · cases knew
          exact zero_add demo.complete
      simp only [Outcome.err, Script.ensures_bind]
      refine (ensures_decode demo.stream _ empty).mono fun result after keeps => ?_
      cases result with
      | error err => trivial
      | ok buffers => exact keeps

/-! ## Finishing -/

/-- Once a call has failed, nothing has to be known. -/
def Finished (full : StoredRows Row) (err : Option String) (known : Known Row) : Prop :=
  err = none → Lacks full known 0

theorem ensures_insertSmall (result : SmallTable → List Row) {tables : List SmallTable}
    (nodup : tables.Nodup) {first : Option String}
    (lacks : first = none → Lacks full known (results result tables)) :
    (insertSmall result tables first).Ensures (attempt full) (Finished full) known := by
  induction tables generalizing first known with
  | nil =>
      intro clean
      have nothing : (results result [] : StoredRows Row) = 0 := by
        funext table
        cases table <;> simp [results]
      exact nothing ▸ lacks clean
  | cons table tables ih =>
      obtain ⟨fresh, nodup⟩ := List.nodup_cons.mp nodup
      rw [insertSmall, Script.ensures_bind]
      cases first with
      | some err => exact ensures_insert_any fun _ _ => ih nodup (by simp)
      | none =>
          have lacks := lacks rfl
          rw [results_cons result fresh] at lacks
          refine ensures_insert lacks (fun after lacks => ?_) fun err after => ?_
          · exact ih nodup fun _ => lacks
          · exact ih nodup (by simp)

theorem ensures_finish (buffers : Buffers Row) (result : SmallTable → List Row)
    {arrival : List SmallTable} (nodup : arrival.Nodup)
    (lacks : Lacks full known (held buffers + results result arrival)) :
    (finish buffers result arrival).Ensures (attempt full) (Finished full) known := by
  rw [held_eq_rowsIn, add_assoc, add_assoc] at lacks
  rw [finish, Script.ensures_bind]
  refine ensures_insert lacks (fun after lacks => ?_) fun err after => by simp [Finished]
  rw [Script.ensures_bind]
  refine ensures_insert lacks (fun after lacks => ?_) fun err after => by simp [Finished]
  rw [Script.ensures_bind]
  refine ensures_insert lacks (fun after lacks => ?_) fun err after => by simp [Finished]
  exact ensures_insertSmall result nodup fun _ => lacks

/-- A worker publishes the full parse, whatever it knows when it starts. -/
theorem ensures_handle (job : Claimed) (demo : Extraction Row) {arrival : List SmallTable}
    (all : arrival.Perm smallTables) :
    (handle job demo arrival).Ensures (attempt demo.complete) (fun _ _ => True) known := by
  have nodup : arrival.Nodup := all.nodup_iff.mpr (by decide)
  rw [handle, Script.ensures_bind]
  refine ensures_call (by simp) fun outcome fetched _ => ?_
  cases outcome with
  | failed landed message => exact fun _ _ => trivial
  | done =>
      simp only [Outcome.err, Script.ensures_bind]
      refine (ensures_deletePublished job).mono fun _ emptied _ => ?_
      rw [Script.ensures_bind]
      refine (ensures_parseReaderWithSink demo all).mono fun parsed decoded lacks => ?_
      cases parsed with
      | unopened err => exact fun _ _ => trivial
      | broken err => exact ensures_cleanup err
      | finished buffers =>
          simp only [Script.ensures_bind]
          refine (ensures_finish buffers demo.result nodup lacks).mono fun err stored clean => ?_
          cases err with
          | some err => exact ensures_cleanup err
          | none =>
              rw [Script.ensures_bind]
              refine ⟨fun _ rows knew => ?_, ?_⟩
              · simpa using clean rfl rows knew
              · rintro err after -
                cases err with
                | some err => exact ensures_cleanup err
                | none => trivial

/-! ## Attempts which are alone -/

namespace State

/-- There are no rows of the match. -/
def holdsNothing (state : State Row) : Bool :=
  replayTables.all fun table => (state.rows table).card = 0

theorem rows_eq_zero {state : State Row} (nothing : state.holdsNothing = true) :
    state.rows = 0 := by
  funext table
  have empty := List.all_eq_true.mp nothing table (mem_replayTables table)
  exact Multiset.card_eq_zero.mp (of_decide_eq_true empty)

/-- Once a worker writes rows, no other worker is alone. -/
def writtenBy (worker : Nat) (alone : Nat → Bool) (other : Nat) : Bool :=
  alone other && other == worker

/-- Which workers are alone after a step: those which opened the demo while there were no rows of
the match, and have seen no row inserted or deleted by another worker since. -/
def watch (state : State Row) (event : Event) (alone : Nat → Bool) : Nat → Bool :=
  match event with
  | .write worker _ _ =>
      match state.workers worker with
      | some ⟨_, .write (.deleteTable _) _⟩ => writtenBy worker alone
      | _ => alone
  | .ask worker _ _ =>
      match state.asks worker with
      | some .openDemo => Function.update alone worker state.holdsNothing
      | some (.insert _ _) => writtenBy worker alone
      | _ => alone
  | _ => alone

/-- A publication which takes effect is that of a worker which is alone. -/
def publishesAlone (observed : State Row × (Nat → Bool)) : Event → Bool
  | .ask worker now outcome =>
      !observed.1.publishes (.ask worker now outcome) || observed.2 worker
  | _ => true

/-- Every worker keeps its contract, and one which is alone knows the rows. -/
def Keeping (demo : Time → Extraction Row) (observed : State Row × (Nat → Bool)) : Prop :=
  ∀ worker startTime script, observed.1.workers worker = some ⟨startTime, script⟩ →
    ∀ known, known = none ∨ (observed.2 worker = true ∧ known = some observed.1.rows) →
      script.Ensures (attempt (demo startTime).complete) (fun _ _ => True) known

variable {demo : Time → Extraction Row} {state after : State Row} {event : Event}
  {alone : Nat → Bool}

/-- A step of one worker keeps the contract of all of them: of its own by the contract, of the
others because either the rows are the same, or they are not alone any more. -/
theorem Keeping.setWorker {work : Worker Row} {worker : Nat} {marked : Nat → Bool}
    {replay : ReplayRow} {rows : StoredRows Row} (keeping : Keeping demo (state, alone))
    (own : ∀ known, known = none ∨ (marked worker = true ∧ known = some rows) →
      work.script.Ensures (attempt (demo work.startTime).complete) (fun _ _ => True) known)
    (others : ∀ other, other ≠ worker → marked other = true →
      alone other = true ∧ rows = state.rows) :
    Keeping demo ({ state.setWorker worker (some work) with replay, rows }, marked) := by
  intro other startTime script running known knows
  by_cases same : other = worker
  · subst same
    obtain rfl : work = ⟨startTime, script⟩ := by simpa [State.setWorker] using running
    exact own known knows
  · have before : state.workers other = some ⟨startTime, script⟩ := by
      simpa [State.setWorker, same] using running
    refine keeping other startTime script before known (knows.imp_right fun knew => ?_)
    obtain ⟨free, kept⟩ := others other same knew.1
    exact ⟨free, kept ▸ knew.2⟩

theorem Keeping.write {worker : Nat} {now : Time} {outcome : Outcome}
    (keeping : Keeping demo (state, alone))
    (step : state.next demo (.write worker now outcome) = some after) :
    Keeping demo (after, state.watch (.write worker now outcome) alone) := by
  simp only [next] at step
  split at step
  · rename_i startTime statement rest running
    cases step
    have mine := keeping worker startTime (.write statement rest) running
    refine keeping.setWorker (fun known knows => ?_) fun other ne free => ?_
    · rcases knows with rfl | ⟨free, rfl⟩
      · exact mine none (.inl rfl) none ⟨outcome, rfl⟩
      · have free : alone worker = true := by
          cases statement <;> simpa [watch, running, writtenBy] using free
        exact mine (some state.rows) (.inr ⟨free, rfl⟩) _ ⟨outcome, rfl⟩
    · cases statement with
      | deleteTable table => simp [watch, running, writtenBy, ne] at free
      | fail message =>
          simp only [watch, running] at free
          exact ⟨free, rfl⟩
  · cases step

theorem Keeping.ask {worker : Nat} {now : Time} {outcome : Outcome}
    (keeping : Keeping demo (state, alone))
    (step : state.next demo (.ask worker now outcome) = some after) :
    Keeping demo (after, state.watch (.ask worker now outcome) alone) := by
  simp only [next] at step
  split at step
  · rename_i startTime query rest running
    cases step
    have mine := keeping worker startTime (.ask query rest) running
    refine keeping.setWorker (fun known knows => ?_) fun other ne free => ?_
    · rcases knows with rfl | ⟨free, rfl⟩
      · refine (mine none (.inl rfl)).2 outcome.err none ⟨outcome, rfl, ?_⟩
        cases query with
        | openDemo => exact .inl rfl
        | _ => rfl
      · cases query with
        | openDemo =>
            have empty : state.rows = 0 := by
              apply rows_eq_zero
              simpa [watch, asks, running] using free
            refine (mine none (.inl rfl)).2 outcome.err _ ⟨outcome, rfl, .inr ?_⟩
            exact congrArg some empty
        | _ =>
            have free : alone worker = true := by
              simpa [watch, asks, running, writtenBy] using free
            exact (mine (some state.rows) (.inr ⟨free, rfl⟩)).2 outcome.err _
              ⟨outcome, rfl, rfl⟩
    · cases query with
      | insert table rows => simp [watch, asks, running, writtenBy, ne] at free
      | _ =>
          refine ⟨?_, rfl⟩
          simpa [watch, asks, running, ne] using free
  · cases step

/-- Every step keeps every contract. -/
theorem Keeping.next (keeping : Keeping demo (state, alone))
    (step : state.next demo event = some after) :
    Keeping demo (after, state.watch event alone) := by
  cases event with
  | claim worker now startTime arrival =>
      simp only [State.next] at step
      split at step
      · cases step
      · obtain ⟨ready, ⟨⟩⟩ := Option.ite_none_right_eq_some.mp step
        obtain ⟨-, all⟩ := Bool.and_eq_true_iff.mp ready
        refine keeping.setWorker (fun known _ => ?_) fun other _ free => ⟨free, rfl⟩
        exact ensures_handle _ _ (List.isPerm_iff.mp all)
  | write worker now outcome => exact keeping.write step
  | ask worker now outcome => exact keeping.ask step
  | stop worker =>
      cases step
      intro other startTime script running
      by_cases same : other = worker
      · simp [State.setWorker, same] at running
      · exact keeping other startTime script (by simpa [State.setWorker, same] using running)
  | reclaimStale now olderThan | restore now =>
      cases step
      exact keeping

/-- Every observed run keeps every contract. -/
theorem keeping_run {replay : ReplayRow} {rows : StoredRows Row} {events : List Event}
    {observed : State Row × (Nat → Bool)}
    (execution : Schedule.run (Schedule.observe (next demo) watch)
      (initial replay rows, fun _ => false) events = some observed) : Keeping demo observed := by
  refine Schedule.run_invariant (fun {before event after} keeping step => ?_) ?_ execution
  · obtain ⟨moved, marked⟩ := Schedule.observe_eq_some.mp step
    rw [← Prod.mk.eta (p := after), ← marked]
    exact keeping.next moved
  · intro worker startTime script running
    cases running

/-! ## Publication -/

/-- A worker which is alone publishes a complete parse. -/
theorem Keeping.publishes (keeping : Keeping demo (state, alone))
    (published : state.publishes event = true)
    (unshared : publishesAlone (state, alone) event = true)
    (step : state.next demo event = some after) :
    ∃ startTime, after.rows = (demo startTime).complete := by
  cases event with
  | ask worker now outcome =>
      simp only [publishesAlone, published, Bool.not_true, Bool.false_or] at unshared
      simp only [State.publishes] at published
      split at published
      · rename_i asked
        simp only [asks] at asked
        split at asked
        · rename_i startTime query rest running
          cases asked
          have mine := keeping worker startTime (.ask .publish rest) running
          have full := (mine (some state.rows) (.inr ⟨unshared, rfl⟩)).1 rfl state.rows rfl
          simp only [State.next, running] at step
          cases step
          exact ⟨startTime, full⟩
        · cases asked
      · cases published
  | _ => cases published

/-- The status becomes parsed only by a publication. -/
theorem publishes_of_parsed (unparsed : state.replay.status ≠ .parsed)
    (step : state.next demo event = some after) (parsed : after.replay.status = .parsed) :
    state.publishes event = true := by
  cases event with
  | claim worker now startTime arrival =>
      simp only [State.next] at step
      split at step
      · cases step
      · obtain ⟨-, ⟨⟩⟩ := Option.ite_none_right_eq_some.mp step
        cases parsed
  | write worker now outcome =>
      simp only [State.next] at step
      split at step
      · rename_i startTime statement rest running
        cases step
        cases statement with
        | deleteTable table => exact absurd parsed unparsed
        | fail message =>
            simp only [Statement.onReplay] at parsed
            split at parsed
            · cases parsed
            · exact absurd parsed unparsed
      · cases step
  | ask worker now outcome =>
      simp only [State.next] at step
      split at step
      · rename_i startTime query rest running
        cases step
        cases query with
        | publish =>
            simp only [Query.onReplay] at parsed
            split at parsed
            · simpa [State.publishes, asks, running]
            · exact absurd parsed unparsed
        | _ => exact absurd parsed unparsed
      · cases step
  | stop worker =>
      cases step
      exact absurd parsed unparsed
  | reclaimStale now olderThan =>
      cases step
      simp only at parsed
      split at parsed
      · cases parsed
      · exact absurd parsed unparsed
  | restore now =>
      cases step
      cases parsed

/-- Along a run whose publications are made by workers which are alone, the rows in ClickHouse are
those of one complete parse whenever the replay becomes parsed, and after every later publication
as well. -/
theorem parsed_rows_complete (demo : Time → Extraction Row) (replay : ReplayRow)
    (rows : StoredRows Row) (events : List Event)
    (unshared : Schedule.Throughout (Schedule.observe (next demo) watch)
      (fun observed event => publishesAlone observed event = true)
      (initial replay rows, fun _ => false) events) :
    ∀ before event state after, before ++ [event] <+: events →
      Schedule.run (next demo) (initial replay rows) before = some state →
      state.next demo event = some after → after.replay.status = .parsed →
      (state.replay.status ≠ .parsed ∨ state.publishes event = true) →
        ∃ startTime, after.rows = (demo startTime).complete := by
  intro before event state after within execution step parsed becomes
  obtain ⟨back, rfl⟩ := within
  obtain ⟨alone, observed⟩ : ∃ alone, Schedule.run (Schedule.observe (next demo) watch)
      (initial replay rows, fun _ => false) before = some (state, alone) :=
    Schedule.exists_run_observe _ execution
  have unshared := Schedule.throughout_iff.mp unshared before event back (state, alone)
    (by simp) observed
  exact (keeping_run observed).publishes
    (becomes.elim (publishes_of_parsed · step parsed) id) unshared step

/-! ## Attempts which are not alone -/

/-- A stored replay which has never been parsed. -/
def neverParsed : ReplayRow where
  status := .stored
  s3Bucket := some "replays"
  s3Key := some "replays/7/7_1.dem.bz2"

/-- A replay with one row of the combat log. -/
def oneEntry : Time → Extraction Nat := fun _ =>
  { stream := [(.combatLog, 0)]
    result := fun _ => [] }

/-- A worker claims the match, reads the demo to its end and inserts the row. -/
def attemptOf (worker : Nat) (now : Time) : List Event :=
  [.claim worker now 0 smallTables, .ask worker now .done, .ask worker now .done,
    .ask worker now .done, .ask worker now .done, .ask worker now .done]

/-- The replay once more, which an earlier version of the parser has published. -/
def parsedBefore : ReplayRow := { neverParsed with parserVersion := some 3 }

/-- A worker claims the published match, deletes its rows, and inserts the row of the demo. -/
def reparseOf (worker : Nat) (now : Time) : List Event :=
  [.claim worker now 0 smallTables, .ask worker now .done] ++
    replayTables.map (fun _ => .write worker now .done) ++
    [.ask worker now .done, .ask worker now .done, .ask worker now .done, .ask worker now .done]

/-- The first worker dies after its insert and its claim is released; the second one deletes the
row of the first with those of the earlier version, and publishes its own. -/
theorem parsed_rows_complete_reclaimed :
    ∃ after, Schedule.run (next oneEntry) (initial parsedBefore (oneEntry 0).complete)
        (reparseOf 0 1 ++ [.stop 0, .reclaimStale 2000 1800] ++ reparseOf 1 2001 ++
          [.ask 1 2002 .done]) = some after ∧
      after.replay.status = .parsed ∧ ∃ startTime, after.rows = (oneEntry startTime).complete :=
  ⟨_, rfl, rfl, parsed_rows_complete oneEntry parsedBefore (oneEntry 0).complete _
    (by decide +kernel)
    (reparseOf 0 1 ++ [.stop 0, .reclaimStale 2000 1800] ++ reparseOf 1 2001) (.ask 1 2002 .done)
    _ _ (List.prefix_refl _) rfl rfl rfl (.inl (by decide))⟩

/-- The first worker dies after its insert, its claim is released, and the second worker inserts
the row again: the replay becomes parsed with two copies. -/
theorem abandoned_rows_published :
    ∃ state after,
      Schedule.run (next oneEntry) (initial neverParsed 0)
        (attemptOf 0 1 ++ [.stop 0, .reclaimStale 2000 1800] ++ attemptOf 1 2001) = some state ∧
      state.next oneEntry (.ask 1 2002 .done) = some after ∧
      state.replay.status ≠ .parsed ∧ after.replay.status = .parsed ∧
      ¬ ∃ startTime, after.rows = (oneEntry startTime).complete := by
  refine ⟨_, _, rfl, rfl, by decide, rfl, ?_⟩
  rintro ⟨startTime, same⟩
  have counts : 2 = 1 := congrArg (fun rows => (rows (.bulk .combatLog)).card) same
  exact absurd counts (by decide)

end State

end Parser
end DotaCollector
