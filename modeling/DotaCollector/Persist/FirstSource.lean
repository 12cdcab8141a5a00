import DotaCollector.Persist.Transactions

/-!
# The first post-game source

Once a post-game transaction has committed, the match carries its stamp, and every writer which
asks afterwards only fills. What the transaction wrote into a player row then stays, as long as
no writer overwrites which has asked before that commit.
-/

namespace DotaCollector
namespace Persist

open Nullable ReadCommitted Schedule Script

/-! ## What a statement keeps -/

/-- The match exists. -/
def Present : Stored .matchRow → Prop := fun _ => True

/-- A post-game record of the match has been written. -/
def Written : Stored .matchRow → Prop := fun row => postgameWritten row

/-- The cell of a player has a value. -/
def CellIs (slot : Nat) (col : PlayerCol) (value : Option Value) : Stored (.player slot) → Prop :=
  fun row => row col = value

/-- The slots a statement upserts. -/
def Statement.slots : Statement → List Nat
  | .insertMatchPlayers rows _ => rows.map Prod.fst
  | _ => []

/-- The statement overwrites players. -/
def Statement.overwrites : Statement → Bool
  | .insertMatchPlayers _ fillOnly => !fillOnly
  | _ => false

variable {matchId : MatchId} {statement : Statement} {view after : MatchView}

theorem matchRow_execute {row : MatchRow} (executed : statement.execute matchId view = some after)
    (found : view.matchRow = some row) :
    ∃ left, after.matchRow = some left ∧ (postgameWritten row → postgameWritten left) := by
  rw [matchRow_of_execute executed, found]
  cases statement with
  | operation change =>
      have stays (written : postgameWritten row) := postgameWritten_onRow written matchId change
      exact ⟨change.onRow matchId row, onMatch_some matchId row change, stays⟩
  | _ => exact ⟨row, rfl, id⟩

theorem fillPlayerId_cell {col : PlayerCol} {row : PlayerRow} (filled : Filled col (row col))
    (playerIds : Int → Option Int) : fillPlayerId playerIds row col = row col := by
  rw [fillPlayerId]
  split
  · by_cases same : col = .playerId
    · subst same
      rw [Function.update_self, coalesce_of_ne_none filled.1]
    · rw [Function.update_of_ne same]
  · rfl

theorem fillTeamId_cell {col : PlayerCol} {row : PlayerRow} (filled : Filled col (row col))
    (sides : Option Int × Option Int) (slot : Nat) : fillTeamId sides slot row col = row col := by
  rw [fillTeamId]
  by_cases same : col = .teamId
  · subst same
    rw [Function.update_self, coalesce_of_ne_none filled.1]
  · rw [Function.update_of_ne same]

/-- A filled cell keeps its value under every statement which does not overwrite players. -/
theorem cell_execute {slot : Nat} {col : PlayerCol} {row : PlayerRow}
    (filled : Filled col (row col)) (fills : statement.overwrites = false)
    (executed : statement.execute matchId view = some after)
    (found : view.players slot = some row) :
    ∃ left, after.players slot = some left ∧ left col = row col := by
  rw [players_of_execute executed]
  cases statement with
  | insertMatchPlayers rows fillOnly =>
      have fillOnly_eq : fillOnly = true := by simpa [Statement.overwrites] using fills
      subst fillOnly_eq
      cases chosen : rows.find? (·.1 = slot) with
      | none => exact ⟨row, by simp [upsertRows, chosen, found], rfl⟩
      | some upserted =>
          have merged : upsertRows rows true view.players slot =
              some (mergePlayer true row upserted.2) := by
            simp [upsertRows, upsertPlayerRow, chosen, found]
          exact ⟨_, merged, mergePlayer_fillOnly upserted.2 filled⟩
  | fillPlayerIds =>
      simp only [found, Option.map_some]
      exact ⟨_, rfl, fillPlayerId_cell filled view.playerIds⟩
  | fillTeamIds =>
      simp only [found, Option.map_some]
      split
      · exact ⟨_, rfl, fillTeamId_cell filled view.sides slot⟩
      · exact ⟨row, rfl, rfl⟩
  | _ => exact ⟨row, found, rfl⟩

theorem upsertRows_of_mem {rows : List (Nat × PlayerRow)} {slot : Nat}
    (member : slot ∈ rows.map Prod.fst) (fillOnly : Bool) (players : Nat → Option PlayerRow) :
    ∃ row, upsertRows rows fillOnly players slot = some row := by
  obtain ⟨row, given, rfl⟩ := List.mem_map.mp member
  cases chosen : rows.find? (·.1 = row.1) with
  | none => simpa using List.find?_eq_none.mp chosen row given
  | some first => exact ⟨_, by simp [upsertRows, chosen]; rfl⟩

/-- No statement removes a player. -/
theorem player_execute {slot : Nat} {row : PlayerRow}
    (executed : statement.execute matchId view = some after)
    (found : view.players slot = some row) : ∃ left, after.players slot = some left := by
  rw [players_of_execute executed]
  cases statement with
  | insertMatchPlayers rows fillOnly =>
      cases chosen : rows.find? (·.1 = slot) with
      | none => exact ⟨row, by simp [upsertRows, chosen, found]⟩
      | some upserted => exact ⟨_, by simp [upsertRows, chosen]; rfl⟩
  | fillPlayerIds =>
      simp only [found, Option.map_some]
      exact ⟨_, rfl⟩
  | fillTeamIds =>
      simp only [found, Option.map_some]
      split <;> exact ⟨_, rfl⟩
  | _ => exact ⟨row, found⟩

/-! ## The rules of the database -/

theorem effect_eq_some {scene : Scene} {visible : ∀ key, Option (Stored key)}
    {effect : Effect Stored}
    (leaves : (database matchId).effect statement scene visible = some effect) :
    ∃ after, statement.execute matchId (scene.view visible) = some after ∧
      effect = ⟨statement.touches matchId (scene.view visible), after.stored⟩ := by
  obtain ⟨after, executed, rfl⟩ := Option.map_eq_some_iff.mp leaves
  exact ⟨after, executed, rfl⟩

theorem keeps_present (statement : Statement) : (database matchId).Keeps Present statement := by
  rintro scene visible effect leaves - ⟨row, found, -⟩
  obtain ⟨after, executed, rfl⟩ := effect_eq_some leaves
  obtain ⟨left, present, -⟩ := matchRow_execute executed found
  exact ⟨left, present, trivial⟩

theorem keeps_written (statement : Statement) : (database matchId).Keeps Written statement := by
  rintro scene visible effect leaves - ⟨row, found, written⟩
  obtain ⟨after, executed, rfl⟩ := effect_eq_some leaves
  obtain ⟨left, present, stays⟩ := matchRow_execute executed found
  exact ⟨left, present, stays written⟩

theorem keeps_cell {slot : Nat} {col : PlayerCol} {value : Option Value}
    (filled : Filled col value) (fills : statement.overwrites = false) :
    (database matchId).Keeps (CellIs slot col value) statement := by
  rintro scene visible effect leaves - ⟨row, found, cell⟩
  obtain ⟨after, executed, rfl⟩ := effect_eq_some leaves
  have filledCell : Filled col (row col) := (show row col = value from cell) ▸ filled
  obtain ⟨left, leftAt, same⟩ := cell_execute filledCell fills executed found
  exact ⟨left, leftAt, same.trans cell⟩

/-! ## What a transaction has done -/

/-- What a transaction knows from its own statements: the match exists, a post-game record of it
has been written, and it has upserted players. -/
structure Progress where
  present : Bool := false
  stamped : Bool := false
  wrote : Bool := false

/-- What a transaction knows after one more statement. -/
def advance (matchId : MatchId) (statement : Statement) (progress : Progress) : Progress :=
  match statement with
  | .operation (.insertUndiscoveredMatch _ facts _) =>
      { progress with present := progress.present || facts.matchId = matchId }
  | .operation (.saveMatchFacts _ facts _) =>
      { progress with stamped := progress.stamped || progress.present && facts.matchId = matchId }
  | .operation (.markSeqFetched _ matchIds) =>
      { progress with stamped := progress.stamped || progress.present && matchId ∈ matchIds }
  | .insertMatchPlayers _ _ => { progress with present := true, wrote := true }
  | _ => progress

/-- A post-game job ends with a stamped match if it has upserted players. -/
def Promise (job : MatchJob matchId) (progress : Progress) : Prop :=
  job.val.postgame → progress.wrote → progress.stamped

theorem present_advance {progress : Progress} (present : progress.present) :
    (advance matchId statement progress).present := by
  unfold advance
  split <;> simp [present]

theorem stamped_advance {progress : Progress} (stamped : progress.stamped) :
    (advance matchId statement progress).stamped := by
  unfold advance
  split <;> simp [stamped]

theorem wrote_advance {progress : Progress} (wrote : progress.wrote) :
    (advance matchId statement progress).wrote := by
  unfold advance
  split <;> simp [wrote]

/-- Players are upserted only under a match which exists. -/
theorem wrote_imp_present_advance {progress : Progress}
    (implies : progress.wrote → progress.present) :
    (advance matchId statement progress).wrote → (advance matchId statement progress).present := by
  unfold advance
  split
  · exact fun wrote => by simp [implies wrote]
  · exact implies
  · exact implies
  · exact fun _ => rfl
  · exact implies

theorem issue_watching {advance : Statement → Progress → Progress} {statement : Statement}
    {post : Unit → Progress → Prop} {progress : Progress}
    (holds : post () (advance statement progress)) :
    (issue statement : Writer Unit).Ensures (watching advance) post progress := by
  rintro after rfl
  exact holds

theorem ensures_anything {Value : Type} (script : Writer Value) (progress : Progress) :
    script.Ensures (watching (advance matchId)) (fun _ _ => True) progress :=
  ensures_watching (fun _ _ _ => trivial) trivial

/-- A sequence-number persist stamps the match it has upserted players of. -/
theorem persistSeq_promise (now : Time) (record : PostgameRecord) (mustExist clearsAttempt : Bool) :
    (persistSeq now record mustExist clearsAttempt).Ensures
      (watching (advance record.facts.matchId))
      (fun _ progress => progress.wrote → progress.stamped) {} := by
  have persisted : (persistMatchRecord now record mustExist .seq).Ensures
      (watching (advance record.facts.matchId))
      (fun _ progress => progress.wrote → progress.present) {} :=
    ensures_watching (fun _ _ implies => wrote_imp_present_advance implies) (by simp)
  refine ensures_bind.mpr (persisted.mono fun _ progress implies => ?_)
  refine ensures_bind.mpr (issue_watching ?_)
  have stamps : ∀ progress : Progress, (progress.wrote → progress.stamped) →
      (runIf clearsAttempt (issue (.operation
        (.stampMatchSeqAttempt record.facts.matchId none false true))) : Writer Unit).Ensures
        (watching (advance record.facts.matchId))
        (fun _ progress => progress.wrote → progress.stamped) progress := fun _ kept =>
    ensures_runIf (fun _ => issue_watching kept) fun _ => kept
  refine stamps _ fun wrote => ?_
  simp [advance, implies wrote]

/-- A GC persist makes sure that the match exists, and stamps it. -/
theorem persistMatchRecord_promise (now : Time) (record : PostgameRecord) (fetched : Fetched) :
    (persistMatchRecord now record false fetched).Ensures
      (watching (advance record.facts.matchId)) (fun _ progress => progress.stamped) {} := by
  have keeps {Value : Type} (script : Writer Value) {progress : Progress}
      (present : progress.present) :
      script.Ensures (watching (advance record.facts.matchId)) (fun _ after => after.present)
        progress :=
    ensures_watching (fun _ _ held => present_advance held) present
  refine ensures_bind.mpr ((ensures_anything _ _).mono fun _ _ _ => ?_)
  refine ensures_bind.mpr ((ensures_anything _ _).mono fun _ _ _ => ?_)
  refine ensures_bind.mpr (issue_watching ?_)
  refine ensures_bind.mpr ((keeps _ (by simp [advance])).mono fun _ _ found => ?_)
  refine ensures_bind.mpr ((keeps _ found).mono fun _ _ linked => ?_)
  refine ensures_bind.mpr ((keeps _ linked).mono fun fillOnly _ asked => ?_)
  refine ensures_bind.mpr (issue_watching ?_)
  exact ensures_watching (fun _ _ held => stamped_advance held) (by simp [advance, asked])

theorem script_promise (job : MatchJob matchId) :
    job.val.script.Ensures (watching (advance matchId)) (fun _ => Promise job) {} := by
  obtain ⟨job, rfl⟩ := job
  cases job with
  | seq now record mustExist clearsAttempt =>
      exact (persistSeq_promise now record mustExist clearsAttempt).mono fun _ _ kept _ => kept
  | gc now record =>
      exact (persistMatchRecord_promise now record .gc).mono fun _ _ stamped _ _ => stamped
  | live | realtime =>
      exact (ensures_anything _ _).mono fun _ _ _ postgame => by simp [Job.postgame] at postgame

/-! ## What a transaction knows is true -/

/-- The transaction has upserted the player of a slot. -/
abbrev Upserted (tx : Tx matchId) (slot : Nat) : Prop :=
  slot ∈ tx.issued.flatMap Statement.slots

/-- What a transaction knows holds of the rows it sees, and upserted players are its own. -/
structure Sound (state : State matchId) (tx : Tx matchId) : Prop where
  present : (tx.progress (advance matchId) {}).present → Has Present (state.visible tx .matchRow)
  stamped : (tx.progress (advance matchId) {}).stamped → Has Written (state.visible tx .matchRow)
  upserted : ∀ slot, Upserted tx slot → ∃ row, tx.own (.player slot) = some row

theorem wrote_of_slots {slot : Nat} (member : slot ∈ statement.slots) (progress : Progress) :
    (advance matchId statement progress).wrote := by
  cases statement with
  | insertMatchPlayers rows fillOnly => rfl
  | _ => cases member

theorem wrote_of_upserted {tx : Tx matchId} {slot : Nat} (upserted : Upserted tx slot) :
    (tx.progress (advance matchId) {}).wrote := by
  rw [ReadCommitted.Tx.progress]
  rw [Upserted] at upserted
  generalize tx.issued = statements at upserted ⊢
  induction statements with
  | nil => cases upserted
  | cons statement earlier ih =>
      rw [List.flatMap_cons] at upserted
      rcases List.mem_append.mp upserted with here | before
      · exact wrote_of_slots here _
      · exact wrote_advance (ih before)

section Write

variable {state : State matchId} {id : Nat} {scene : Scene} {tx : Tx matchId}
  {rest : Writer Unit} {effect : Effect Stored}

/-- An operation which locks the row of the match leaves its row view. -/
theorem visible_operation {change : Operation} {row : MatchRow}
    (leaves : (database matchId).effect (.operation change) scene (state.visible tx) = some effect)
    (found : state.visible tx .matchRow = some row)
    (locks : locksMatch matchId (some row) change) :
    (state.write id tx (.operation change) rest effect).visible
      (tx.wrote (.operation change) rest effect) .matchRow = some (change.onRow matchId row) := by
  obtain ⟨after, ⟨⟩, rfl⟩ := effect_eq_some leaves
  refine visible_write_of_touched ?_ ?_
  · simp [Statement.touches, Scene.view, found, locks]
  · simp [MatchView.stored, Scene.view, found, onMatch_some]

theorem present_write (leaves : (database matchId).effect statement scene (state.visible tx) =
      some effect)
    {progress : Progress} (sound : progress.present → Has Present (state.visible tx .matchRow))
    (present : (advance matchId statement progress).present) :
    Has Present
      ((state.write id tx statement rest effect).visible (tx.wrote statement rest effect)
        .matchRow) := by
  have stays := has_visible_write id rest leaves (keeps_present statement)
  unfold advance at present
  split at present
  · next now facts fetched =>
      cases found : state.visible tx .matchRow with
      | some row => exact stays ⟨row, found, trivial⟩
      | none =>
          have absent : progress.present = false := by
            by_contra known
            obtain ⟨row, seen, -⟩ := sound (by simpa using known)
            cases found.symm.trans seen
          obtain rfl : facts.matchId = matchId := by simpa [absent] using present
          obtain ⟨after, ⟨⟩, rfl⟩ := effect_eq_some leaves
          refine ⟨facts.undiscovered now fetched, visible_write_of_touched ?_ ?_, trivial⟩
          · simp [Statement.touches, Scene.view, found, locksMatch]
          · simp [MatchView.stored, Scene.view, found, onMatch_insertUndiscoveredMatch]
  · exact stays (sound present)
  · exact stays (sound present)
  · obtain ⟨after, executed, -⟩ := effect_eq_some leaves
    obtain ⟨row, found⟩ := matchRow_of_insertMatchPlayers executed
    exact stays ⟨row, found, trivial⟩
  · exact stays (sound present)

theorem stamped_write (leaves : (database matchId).effect statement scene (state.visible tx) =
      some effect)
    {progress : Progress} (present : progress.present → Has Present (state.visible tx .matchRow))
    (sound : progress.stamped → Has Written (state.visible tx .matchRow))
    (stamped : (advance matchId statement progress).stamped) :
    Has Written
      ((state.write id tx statement rest effect).visible (tx.wrote statement rest effect)
        .matchRow) := by
  have stays := has_visible_write id rest leaves (keeps_written statement)
  unfold advance at stamped
  split at stamped
  · exact stays (sound stamped)
  · next now facts fetched =>
      have knows : progress.stamped ∨ progress.present ∧ facts.matchId = matchId := by
        simpa using stamped
      rcases knows with known | ⟨here, same⟩
      · exact stays (sound known)
      · obtain ⟨row, found, -⟩ := present here
        refine ⟨_, visible_operation leaves found (by simp [locksMatch, same]), ?_⟩
        simpa [Written, Operation.onRow, same] using postgameWritten_save now facts fetched row
  · next now matchIds =>
      have knows : progress.stamped ∨ progress.present ∧ matchId ∈ matchIds := by
        simpa using stamped
      rcases knows with known | ⟨here, listed⟩
      · exact stays (sound known)
      · obtain ⟨row, found, -⟩ := present here
        refine ⟨_, visible_operation leaves found (by simp [locksMatch, listed]), ?_⟩
        simpa [Written, Operation.onRow, listed] using postgameWritten_stampSeq now row
  · exact stays (sound stamped)
  · exact stays (sound stamped)

/-- A statement locks and leaves the players it upserts. -/
theorem slots_execute {slot : Nat} (executed : statement.execute matchId view = some after)
    (member : slot ∈ statement.slots) :
    .player slot ∈ statement.touches matchId view ∧ ∃ row, after.players slot = some row := by
  rw [players_of_execute executed]
  cases statement with
  | insertMatchPlayers rows fillOnly =>
      refine ⟨?_, upsertRows_of_mem member fillOnly view.players⟩
      obtain ⟨row, given, rfl⟩ := List.mem_map.mp member
      exact List.mem_map.mpr ⟨row, given, rfl⟩
  | _ => cases member

theorem upserted_write
    (leaves : (database matchId).effect statement scene (state.visible tx) = some effect)
    (sound : ∀ slot, Upserted tx slot → ∃ row, tx.own (.player slot) = some row) {slot : Nat}
    (upserted : Upserted (tx.wrote statement rest effect) slot) :
    ∃ row, (tx.wrote statement rest effect).own (.player slot) = some row := by
  obtain ⟨after, executed, rfl⟩ := effect_eq_some leaves
  rw [Tx.own_wrote]
  rcases List.mem_append.mp upserted with here | before
  · obtain ⟨touched, left⟩ := slots_execute executed here
    rw [if_pos touched]
    exact left
  · obtain ⟨row, own⟩ := sound slot before
    have seen : (scene.view (state.visible tx)).players slot = some row := by
      simp [Scene.view, State.visible, own]
    split
    · exact player_execute executed seen
    · exact ⟨row, own⟩

theorem Sound.write (sound : Sound state tx)
    (leaves : (database matchId).effect statement scene (state.visible tx) = some effect) :
    Sound (state.write id tx statement rest effect) (tx.wrote statement rest effect) where
  present := present_write leaves sound.present
  stamped := stamped_write leaves sound.present sound.stamped
  upserted _ := upserted_write leaves sound.upserted

end Write

/-! ## Runs -/

/-- What holds in every run. -/
structure Consistent (state : State matchId) : Prop where
  locked : Locked state
  stamps : Stable Written state
  promised : Promised (advance matchId) {} Promise state
  sound : ∀ id tx, state.txs id = some tx → Sound state tx

variable {state later : State matchId} {event : Event matchId}

theorem Sound.next {tx : Tx matchId} (sound : Sound state tx) (stamps : Stable Written state)
    (step : Persist.next matchId state event = some later) : Sound later tx where
  present known := by
    have stable : Stable Present state := fun _ _ _ _ _ _ => trivial
    exact stable.visible_next (sound.present known) step
  stamped known := stamps.visible_next (sound.stamped known) step
  upserted := sound.upserted

theorem Consistent.next (consistent : Consistent state)
    (step : Persist.next matchId state event = some later) : Consistent later where
  locked := consistent.locked.next step
  stamps :=
    consistent.stamps.next consistent.locked (fun statement _ => keeps_written statement) step
  promised := consistent.promised.next script_promise step
  sound := by
    intro other found running
    have kept {id : Nat} {tx : Tx matchId} (before : state.txs id = some tx) : Sound later tx :=
      (consistent.sound id tx before).next consistent.stamps step
    cases moves_of_next step with
    | start idle =>
        rcases running_update running with ⟨rfl, ⟨⟩⟩ | ⟨-, before⟩
        · exact ⟨by simp [Tx.progress], by simp [Tx.progress], by simp⟩
        · exact kept before
    | ask asking asks =>
        rcases running_update running with ⟨rfl, ⟨⟩⟩ | ⟨-, before⟩
        · exact ⟨(kept asking).present, (kept asking).stamped, (kept asking).upserted⟩
        · exact kept before
    | write writing issues leaves unlocked =>
        rcases running_update running with ⟨rfl, ⟨⟩⟩ | ⟨-, before⟩
        · exact (consistent.sound _ _ writing).write leaves
        · exact kept before
    | commit | abort =>
        rcases running_update running with ⟨-, ⟨⟩⟩ | ⟨-, before⟩
        exact kept before

theorem consistent_of_idle (idle : ∀ id, state.txs id = none) : Consistent state where
  locked id tx running := by simp [idle] at running
  stamps _ id tx running := by simp [idle] at running
  promised id tx running := by simp [idle] at running
  sound id tx running := by simp [idle] at running

/-! ## The first source wins -/

/-- The next statement of a transaction overwrites players. -/
def aboutToOverwrite (tx : Tx matchId) : Bool :=
  match tx.script with
  | .write statement _ => statement.overwrites
  | _ => false

/-- No writer overwrites players while the match carries a committed post-game stamp. -/
def inTime (state : State matchId) : Event matchId → Bool
  | .step id _ =>
      !((state.txs id).any aboutToOverwrite && (state.committed .matchRow).any postgameWritten)
  | _ => true

/-- After the commit of a post-game transaction, every filled cell of a player it has upserted
keeps its value in every later committed state. -/
def FirstSourceWins (initial : State matchId) (events : List (Event matchId)) (id : Nat)
    (rest : List (Event matchId)) : Prop :=
  ∀ before tx published final,
    run (Persist.next matchId) initial events = some before →
    before.txs id = some tx → tx.job.val.postgame →
    Persist.next matchId before (.commit id) = some published →
    run (Persist.next matchId) published rest = some final →
    ∀ slot row col, Upserted tx slot → published.committed (.player slot) = some row →
      Filled col (row col) →
        ∃ kept, final.committed (.player slot) = some kept ∧ kept col = row col

/-- The published cell stays. -/
structure Settled (slot : Nat) (col : PlayerCol) (value : Option Value) (state : State matchId) :
    Prop where
  consistent : Consistent state
  stamped : Has Written (state.committed .matchRow)
  stable : Stable (CellIs slot col value) state
  cell : Has (CellIs slot col value) (state.committed (.player slot))

theorem fills_of_inTime {statement : Statement} (timely : inTime state event)
    (stamped : Has Written (state.committed .matchRow)) (due : Due state event statement) :
    statement.overwrites = false := by
  obtain ⟨id, scene, tx, rest, rfl, running, issues⟩ := due
  obtain ⟨row, found, written⟩ := stamped
  have stampedRow : postgameWritten row = true := written
  simpa [inTime, running, found, aboutToOverwrite, issues, stampedRow] using timely

theorem Settled.next {slot : Nat} {col : PlayerCol} {value : Option Value}
    (filled : Filled col value) (settled : Settled slot col value state)
    (timely : inTime state event) (step : Persist.next matchId state event = some later) :
    Settled slot col value later where
  consistent := settled.consistent.next step
  stamped := settled.consistent.stamps.committed_next settled.stamped step
  stable := settled.stable.next settled.consistent.locked
    (fun _ due => keeps_cell filled (fills_of_inTime timely settled.stamped due)) step
  cell := settled.stable.committed_next settled.cell step

/-- A post-game transaction which has upserted a player settles its cells when it commits. -/
theorem settled_of_commit {id : Nat} {tx : Tx matchId} {slot : Nat} {col : PlayerCol}
    {row : PlayerRow} (consistent : Consistent state) (running : state.txs id = some tx)
    (postgame : tx.job.val.postgame)
    (step : Persist.next matchId state (.commit id) = some later) (upserted : Upserted tx slot)
    (found : later.committed (.player slot) = some row) : Settled slot col (row col) later := by
  have sound := consistent.sound id tx running
  have consistentAfter := consistent.next step
  cases moves_of_next step with
  | commit committing done =>
      cases running.symm.trans committing
      have stamped := consistent.promised.kept running done postgame (wrote_of_upserted upserted)
      obtain ⟨own, ownAt⟩ := sound.upserted slot upserted
      exact
        { consistent := consistentAfter
          stamped := sound.stamped stamped
          stable := stable_of_commit consistent.locked running ownAt
          cell := ⟨row, found, rfl⟩ }

/-- If no writer overwrites after a post-game commit, the first post-game source wins. -/
theorem first_source_wins (initial : State matchId) (events : List (Event matchId)) (id : Nat)
    (rest : List (Event matchId)) (idle : ∀ id, initial.txs id = none)
    (timely : Throughout (Persist.next matchId) (fun state event => inTime state event)
      initial (events ++ .commit id :: rest)) :
    FirstSourceWins initial events id rest := by
  intro before tx published final opening running postgame commit closing slot row col upserted
    found filled
  have consistent : Consistent before :=
    run_invariant (fun held step => held.next step) (consistent_of_idle idle) opening
  have settled : Settled slot col (row col) published :=
    settled_of_commit consistent running postgame commit upserted found
  have later := (timely.back opening).2 published commit
  have last : Settled slot col (row col) final :=
    later.run_invariant (fun held timely step => held.next filled timely step) settled closing
  exact last.cell

/-- What a run around a commit shows of one cell: whether the transaction is a post-game one which
has upserted the player, the published value, and the value at the end. -/
def cellAround (initial : State matchId) (events : List (Event matchId)) (id : Nat)
    (rest : List (Event matchId)) (slot : Nat) (col : PlayerCol) :
    Option (Bool × Option Value × Option Value) := do
  let before ← run (Persist.next matchId) initial events
  let tx ← before.txs id
  let published ← Persist.next matchId before (.commit id)
  let final ← run (Persist.next matchId) published rest
  let row ← published.committed (.player slot)
  let kept ← final.committed (.player slot)
  return (tx.job.val.postgame && decide (Upserted tx slot), row col, kept col)

theorem not_firstSourceWins {initial : State matchId} {events rest : List (Event matchId)}
    {id slot : Nat} {col : PlayerCol} {value lost : Option Value}
    (shown : cellAround initial events id rest slot col = some (true, value, lost))
    (filled : Filled col value) (changed : lost ≠ value) :
    ¬ FirstSourceWins initial events id rest := by
  intro wins
  rw [cellAround] at shown
  obtain ⟨before, opening, shown⟩ := Option.bind_eq_some_iff.mp shown
  obtain ⟨tx, running, shown⟩ := Option.bind_eq_some_iff.mp shown
  obtain ⟨published, commit, shown⟩ := Option.bind_eq_some_iff.mp shown
  obtain ⟨final, closing, shown⟩ := Option.bind_eq_some_iff.mp shown
  obtain ⟨row, found, shown⟩ := Option.bind_eq_some_iff.mp shown
  obtain ⟨last, foundLast, shown⟩ := Option.bind_eq_some_iff.mp shown
  obtain ⟨writer, values⟩ := Prod.mk.inj (Option.some.inj shown)
  obtain ⟨postgame, upserted⟩ := Bool.and_eq_true_iff.mp writer
  obtain ⟨rfl, rfl⟩ := Prod.mk.inj values
  obtain ⟨kept, keptAt, same⟩ := wins before tx published final opening running postgame commit
    closing slot row col (of_decide_eq_true upserted) found filled
  cases foundLast.symm.trans keptAt
  exact changed same

/-! ## Two runs of one match -/

/-- A record of one player. -/
def recordWith (kills : Int) : PostgameRecord where
  facts :=
    { matchId := 7
      matchSeqNum := some 11
      startTime := some 1700000000
      duration := none
      others := fun _ => none }
  players :=
    [{ accountId := 111
       playerSlot := 0
       heroId := 1
       stats := fun col => if col = .kills then some (.int kills) else none }]

/-- A match which waits for its post-game records. -/
def awaiting : State 7 where
  committed
    | .matchRow => some { status := .awaitingHistory }
    | _ => none

def seqPersist : Event 7 := .start 1 ⟨.seq 0 (recordWith 12) false true, rfl⟩

def gcPersist : Event 7 := .start 0 ⟨.gc 0 (recordWith 99), rfl⟩

/-- The next steps of a transaction. -/
def steps (id count : Nat) : List (Event 7) := List.replicate count (.step id {})

theorem first_source_wins_sequential :
    cellAround awaiting (seqPersist :: steps 1 14) 1 (gcPersist :: steps 0 12 ++ [.commit 0]) 0
        .kills = some (true, some (.int 12), some (.int 12)) ∧
      FirstSourceWins awaiting (seqPersist :: steps 1 14) 1
        (gcPersist :: steps 0 12 ++ [.commit 0]) :=
  ⟨by decide +kernel, first_source_wins awaiting _ 1 _ (fun _ => rfl) (by decide +kernel)⟩

/-- A persist which has asked before the other one commits overwrites what that one wrote. -/
theorem stale_persist_overwrites :
    ¬ FirstSourceWins awaiting (gcPersist :: steps 0 2 ++ seqPersist :: steps 1 14) 1
      (steps 0 10 ++ [.commit 0]) := by
  have shown : cellAround awaiting (gcPersist :: steps 0 2 ++ seqPersist :: steps 1 14) 1
      (steps 0 10 ++ [.commit 0]) 0 .kills = some (true, some (.int 12), some (.int 99)) := by
    decide +kernel
  exact not_firstSourceWins shown ⟨by decide, by decide⟩ (by decide)

end Persist
end DotaCollector
