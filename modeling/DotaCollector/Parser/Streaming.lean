import Mathlib.Data.Finset.Card
import Mathlib.Tactic.Ring
import DotaCollector.Parser.Session

/-!
# Streaming and in-memory parses

Both parses see the same events, so they emit the same rows and end in the same world; with a sink
the interval table holds only the rows behind the last flush when the summaries are made. The two
results agree exactly when those rows are enough for every player.
-/

namespace DotaCollector
namespace Parse

open DotaCollector.Parser (flushBatch)

variable {Scalar Columns CombatLog Action Small Event : Type}
  {handle : Callbacks Scalar Columns CombatLog Action Small Event}

/-! ## The rows of a demo -/

/-- What the callbacks make of a demo: the world behind it, and all rows in their order. -/
def unroll (handle : Callbacks Scalar Columns CombatLog Action Small Event) :
    World Scalar Small → List Event →
      World Scalar Small × List (Emission Scalar Columns CombatLog Action)
  | world, [] => (world, [])
  | world, event :: demo =>
      let (after, rows) := handle event world
      let (final, later) := unroll handle after demo
      (final, rows ++ later)

theorem unroll_append (world : World Scalar Small) (front back : List Event) :
    unroll handle world (front ++ back) =
      ((unroll handle (unroll handle world front).1 back).1,
        (unroll handle world front).2 ++ (unroll handle (unroll handle world front).1 back).2) := by
  induction front generalizing world with
  | nil => rfl
  | cons event front ih => simp only [List.cons_append, unroll, ih, List.append_assoc]

def combatRows (rows : List (Emission Scalar Columns CombatLog Action)) : List CombatLog :=
  rows.filterMap fun | .combat row => some row | _ => none

def intervalRows (rows : List (Emission Scalar Columns CombatLog Action)) :
    List (Interval Scalar Columns) :=
  rows.filterMap fun | .interval row => some row | _ => none

def actionRows (rows : List (Emission Scalar Columns CombatLog Action)) : List Action :=
  rows.filterMap fun | .action row => some row | _ => none

/-- The session whose buffers have taken up some more rows. -/
def Session.takeAll (sink : Bool) (session : Session Scalar Columns CombatLog Action Small)
    (rows : List (Emission Scalar Columns CombatLog Action)) :
    Session Scalar Columns CombatLog Action Small where
  world := session.world
  combatLog := (combatRows rows).foldl (Buffer.push (capacity sink)) session.combatLog
  intervals := (intervalRows rows).foldl (Buffer.push (capacity sink)) session.intervals
  actions := (actionRows rows).foldl (Buffer.push (capacity sink)) session.actions

theorem foldl_emit (sink : Bool) (session : Session Scalar Columns CombatLog Action Small)
    (rows : List (Emission Scalar Columns CombatLog Action)) :
    rows.foldl (Session.emit sink) session = session.takeAll sink rows := by
  induction rows generalizing session with
  | nil => rfl
  | cons row rows ih =>
      rw [List.foldl_cons, ih]
      cases row with
      | combat | interval | action => rfl

theorem takeAll_takeAll (sink : Bool) (session : Session Scalar Columns CombatLog Action Small)
    (rows later : List (Emission Scalar Columns CombatLog Action)) (world : World Scalar Small) :
    { session.takeAll sink rows with world }.takeAll sink later =
      { session with world }.takeAll sink (rows ++ later) := by
  simp only [Session.takeAll, combatRows, intervalRows, actionRows, List.filterMap_append,
    List.foldl_append]

/-- A decoder goes through the rows of the demo, whether it has a sink or not. -/
theorem foldl_step (sink : Bool) (session : Session Scalar Columns CombatLog Action Small)
    (demo : List Event) :
    demo.foldl (Session.step sink handle) session =
      { session with world := (unroll handle session.world demo).1 }.takeAll sink
        (unroll handle session.world demo).2 := by
  induction demo generalizing session with
  | nil => rfl
  | cons event demo ih =>
      rw [List.foldl_cons, ih]
      simp only [Session.step, foldl_emit, unroll]
      exact takeAll_takeAll sink { session with world := (handle event session.world).1 }
        (handle event session.world).2 _ _

/-- The buffers behind a demo, whether they are flushed or not. -/
def finalSession (sink : Bool) (handle : Callbacks Scalar Columns CombatLog Action Small Event)
    (start : World Scalar Small) (demo : List Event) :
    Session Scalar Columns CombatLog Action Small where
  world := (unroll handle start demo).1
  combatLog := Buffer.pushAll (capacity sink) (combatRows (unroll handle start demo).2)
  intervals := Buffer.pushAll (capacity sink) (intervalRows (unroll handle start demo).2)
  actions := Buffer.pushAll (capacity sink) (actionRows (unroll handle start demo).2)

theorem decode_eq (sink : Bool) (start : World Scalar Small) (demo : List Event) :
    demo.foldl (Session.step sink handle) { world := start } =
      finalSession sink handle start demo :=
  foldl_step sink { world := start } demo

/-! ## The scan from the back -/

theorem scanBack_extends (playerCount : Nat) (last rows : List (Interval Scalar Columns)) :
    last <+: scanBack playerCount last rows := by
  induction rows generalizing last with
  | nil => exact List.prefix_refl last
  | cons row rows ih =>
      have grown : last <+: if last.any (·.slot = row.slot) then last else last ++ [row] := by
        split_ifs
        · exact List.prefix_refl last
        · exact List.prefix_append last [row]
      simp only [scanBack]
      split_ifs at grown ⊢
      all_goals first | exact grown | exact grown.trans (ih _)

/-- Older rows add to what the scan has found, and change nothing of it. -/
theorem scanBack_append_extends (playerCount : Nat)
    (last rows older : List (Interval Scalar Columns)) :
    scanBack playerCount last rows <+: scanBack playerCount last (rows ++ older) := by
  induction rows generalizing last with
  | nil => exact scanBack_extends playerCount last older
  | cons row rows ih =>
      simp only [List.cons_append, scanBack]
      split_ifs
      all_goals first | exact List.prefix_refl _ | exact ih _

theorem find?_eq_some_of_prefix {α : Type*} {found : α → Bool} {front whole : List α} {value : α}
    (within : front <+: whole) (here : front.find? found = some value) :
    whole.find? found = some value := by
  obtain ⟨back, rfl⟩ := within
  rw [List.find?_append, here]
  rfl

/-- A row which the scan finds among the newest rows is the one it finds among all. -/
theorem lastInterval_of_suffix {playerCount : Nat} {tail rows : List (Interval Scalar Columns)}
    {slot : Int} {row : Interval Scalar Columns} (within : tail <:+ rows)
    (found : lastInterval playerCount tail slot = some row) :
    lastInterval playerCount rows slot = some row := by
  obtain ⟨front, rfl⟩ := within
  rw [lastInterval, List.reverse_append]
  exact find?_eq_some_of_prefix (scanBack_append_extends playerCount [] tail.reverse front.reverse)
    found

/-- The slots of some rows, each counted once. -/
def slotsOf (rows : List (Interval Scalar Columns)) : Finset Int := (rows.map (·.slot)).toFinset

theorem slotsOf_append_singleton (rows : List (Interval Scalar Columns))
    (row : Interval Scalar Columns) : slotsOf (rows ++ [row]) = insert row.slot (slotsOf rows) := by
  simp [slotsOf, List.toFinset_append, Finset.union_singleton]

theorem mem_slotsOf {rows : List (Interval Scalar Columns)} {slot : Int} :
    slot ∈ slotsOf rows ↔ rows.any (·.slot = slot) = true := by
  simp [slotsOf]

/-- The slot has a row with newer rows of fewer slots than there are players. -/
def HasRow (playerCount : Nat) (rows : List (Interval Scalar Columns)) (slot : Int) : Prop :=
  ∃ older row newer, rows = older ++ row :: newer ∧ row.slot = slot ∧
    (slotsOf newer).card < playerCount

/-- What the scan has found, whether it adds the row or knows the slot already. -/
theorem slotsOf_noted (last : List (Interval Scalar Columns)) (row : Interval Scalar Columns) :
    slotsOf (if last.any (·.slot = row.slot) then last else last ++ [row]) =
      insert row.slot (slotsOf last) := by
  split_ifs with known
  · exact (Finset.insert_eq_of_mem (mem_slotsOf.mpr known)).symm
  · exact slotsOf_append_singleton last row

/-- The scan counts a slot once. -/
theorem length_noted {last : List (Interval Scalar Columns)} (row : Interval Scalar Columns)
    (distinct : last.length = (slotsOf last).card) :
    (if last.any (·.slot = row.slot) then last else last ++ [row]).length =
      (insert row.slot (slotsOf last)).card := by
  split_ifs with known
  · rw [Finset.insert_eq_of_mem (mem_slotsOf.mpr known)]
    exact distinct
  · rw [Finset.card_insert_of_notMem (mt mem_slotsOf.mp known), List.length_append, distinct]
    rfl

/-- The scan finds the slots it knows, and those which come before it has one for each player. -/
theorem mem_slotsOf_scanBack_iff {playerCount : Nat} {slot : Int}
    (last rows : List (Interval Scalar Columns)) (distinct : last.length = (slotsOf last).card)
    (room : last.length < playerCount) :
    slot ∈ slotsOf (scanBack playerCount last rows) ↔
      slot ∈ slotsOf last ∨ ∃ newer row older, rows = newer ++ row :: older ∧ row.slot = slot ∧
        (slotsOf last ∪ slotsOf newer).card < playerCount := by
  induction rows generalizing last with
  | nil => simp [scanBack]
  | cons row rows ih =>
      have noted := slotsOf_noted last row
      have length := length_noted row distinct
      simp only [scanBack]
      generalize (if last.any (·.slot = row.slot) then last else last ++ [row]) = found
        at noted length ⊢
      have here : slot = row.slot → ∃ newer found older, row :: rows = newer ++ found :: older ∧
          found.slot = slot ∧ (slotsOf last ∪ slotsOf newer).card < playerCount := by
        rintro rfl
        refine ⟨[], row, rows, rfl, rfl, ?_⟩
        rw [show slotsOf ([] : List (Interval Scalar Columns)) = ∅ from rfl, Finset.union_empty,
          ← distinct]
        exact room
      split_ifs with full
      · rw [noted, Finset.mem_insert]
        constructor
        · rintro (same | known)
          · exact .inr (here same)
          · exact .inl known
        · rintro (known | ⟨newer, later, older, split, rfl, few⟩)
          · exact .inr known
          · rcases newer with _ | ⟨first, newer⟩
            · cases split
              exact .inl rfl
            · obtain ⟨rfl, -⟩ := List.cons.inj split
              have fewer : (insert row.slot (slotsOf last)).card ≤
                  (slotsOf last ∪ slotsOf (row :: newer)).card :=
                Finset.card_le_card (Finset.insert_subset
                  (Finset.mem_union_right _ (by simp [slotsOf])) Finset.subset_union_left)
              omega
      · rw [ih found (by rw [length, noted]) (by omega), noted, Finset.mem_insert, or_assoc]
        constructor
        · rintro (same | known | ⟨newer, later, older, rfl, rfl, few⟩)
          · exact .inr (here same)
          · exact .inl known
          · refine .inr ⟨row :: newer, later, older, rfl, rfl, ?_⟩
            convert few using 2
            simp [slotsOf, Finset.union_insert]
        · rintro (known | ⟨newer, later, older, split, rfl, few⟩)
          · exact .inr (.inl known)
          · rcases newer with _ | ⟨first, newer⟩
            · cases split
              exact .inl rfl
            · obtain ⟨rfl, rfl⟩ := List.cons.inj split
              refine .inr (.inr ⟨newer, later, older, rfl, rfl, ?_⟩)
              convert few using 2
              simp [slotsOf, Finset.union_insert]

theorem slotsOf_reverse (rows : List (Interval Scalar Columns)) :
    slotsOf rows.reverse = slotsOf rows := by
  simp [slotsOf, List.map_reverse]

/-- The scan finds a row of a slot exactly when the slot has a row new enough. -/
theorem lastInterval_isSome_iff {playerCount : Nat} (players : 0 < playerCount)
    (rows : List (Interval Scalar Columns)) (slot : Int) :
    (lastInterval playerCount rows slot).isSome = true ↔ HasRow playerCount rows slot := by
  rw [lastInterval, List.find?_isSome, ← List.any_eq_true, ← mem_slotsOf,
    mem_slotsOf_scanBack_iff [] rows.reverse rfl players]
  constructor
  · rintro (known | ⟨newer, row, older, split, rfl, few⟩)
    · cases known
    · refine ⟨older.reverse, row, newer.reverse, ?_, rfl, ?_⟩
      · rw [← List.reverse_reverse rows, split]
        simp
      · rw [slotsOf_reverse]
        simpa [slotsOf] using few
  · rintro ⟨older, row, newer, rfl, rfl, few⟩
    refine .inr ⟨newer.reverse, row, older.reverse, by simp, rfl, ?_⟩
    rw [slotsOf_reverse]
    simpa [slotsOf] using few

/-! ## The summaries of a table and of its tail -/

variable [BEq Scalar] [Add Scalar] [Sub Scalar] [Mul Scalar] [NatCast Scalar] [LT Scalar]
  [DecidableLT Scalar]

/-- The votes of some positions. -/
def votesOf (samples : List (Scalar × Scalar)) : LaneVotes := samples.foldl LaneVotes.count {}

/-- The positions are of the safe lane of the team at least as often as of the other. -/
def Safe (team : Int) (votes : LaneVotes) : Prop :=
  if team = 2 then votes.top ≤ votes.bot else votes.bot ≤ votes.top

/-- Two samples of positions of one player count alike: both are too few, or both have too much
jungle, too much of the middle, and the same of the two side lanes, as far as each of these is
asked for. -/
def SameVotes (team : Int) (few all : List (Scalar × Scalar)) : Prop :=
  (few.length < 4 ↔ all.length < 4) ∧
    (4 ≤ all.length →
      (few.length < (votesOf few).jungle * 3 ↔ all.length < (votesOf all).jungle * 3) ∧
        ((votesOf all).jungle * 3 ≤ all.length →
          (few.length < (votesOf few).mid * 2 ↔ all.length < (votesOf all).mid * 2) ∧
            ((votesOf all).mid * 2 ≤ all.length →
              (Safe team (votesOf few) ↔ Safe team (votesOf all)))))

omit [BEq Scalar] in
/-- `inferLane`, with one name for the comparison of the side lanes. -/
theorem inferLane_eq (samples : List (Scalar × Scalar)) (team : Int)
    [Decidable (Safe team (votesOf samples))] :
    inferLane samples team =
      if samples.length < 4 then (0, 0, false)
      else if samples.length < (votesOf samples).jungle * 3 then (4, 4, true)
      else if samples.length < (votesOf samples).mid * 2 then (2, 2, false)
      else if Safe team (votesOf samples) then (1, 1, false)
      else (3, 3, false) := by
  simp only [inferLane, Safe, votesOf]
  by_cases radiant : team = 2 <;> simp [radiant]

omit [BEq Scalar] in
/-- The five outcomes of `inferLane` differ, so the same lane means the same votes. -/
theorem inferLane_eq_iff (team : Int) (few all : List (Scalar × Scalar)) :
    inferLane few team = inferLane all team ↔ SameVotes team few all := by
  classical
  rw [inferLane_eq few, inferLane_eq all, SameVotes]
  generalize Safe team (votesOf few) = safe, Safe team (votesOf all) = safeAll
  by_cases short : few.length < 4 <;> by_cases shortAll : all.length < 4 <;>
    simp only [short, shortAll, if_true, if_false, true_iff, false_iff]
  all_goals grind

/-- What the tail of the interval table has to tell of a player: a row, if the table has one, and
positions which count alike, unless the player has enough of them without the table. -/
def KeepsSummary (playerCount : Nat) (laneUntil : Int)
    (tail rows : List (Interval Scalar Columns)) (player : Player Scalar) : Prop :=
  HasRow playerCount rows player.slot →
    HasRow playerCount tail player.slot ∧
      (4 ≤ player.posSamples.length ∨
        SameVotes player.team
          (player.posSamples ++ intervalLaneSamples tail player.slot laneUntil)
          (player.posSamples ++ intervalLaneSamples rows player.slot laneUntil))

/-- The lanes inferred from two tables agree when the player has four positions without them, or
when both count alike. -/
theorem inferLane_laneSamples_eq_iff (laneUntil : Int) (tail rows : List (Interval Scalar Columns))
    (player : Player Scalar) :
    inferLane (laneSamples laneUntil tail player) player.team =
        inferLane (laneSamples laneUntil rows player) player.team ↔
      4 ≤ player.posSamples.length ∨
        SameVotes player.team
          (player.posSamples ++ intervalLaneSamples tail player.slot laneUntil)
          (player.posSamples ++ intervalLaneSamples rows player.slot laneUntil) := by
  rw [laneSamples, laneSamples]
  split_ifs with few
  · rw [inferLane_eq_iff, or_iff_right (Nat.not_le_of_lt few)]
  · simp [Nat.le_of_not_lt few]

theorem summarize_isSome_of_suffix {playerCount : Nat} {laneUntil : Int}
    {tail rows : List (Interval Scalar Columns)} {player : Player Scalar} (within : tail <:+ rows)
    (found : (summarize playerCount laneUntil tail player).isSome = true) :
    (summarize playerCount laneUntil rows player).isSome = true := by
  rw [summarize, Option.isSome_map] at found ⊢
  obtain ⟨row, newest⟩ := Option.isSome_iff_exists.mp found
  rw [lastInterval_of_suffix within newest]
  rfl

theorem summarize_eq_iff {playerCount : Nat} (players : 0 < playerCount) {laneUntil : Int}
    {tail rows : List (Interval Scalar Columns)} {player : Player Scalar}
    (within : tail <:+ rows) :
    summarize playerCount laneUntil tail player = summarize playerCount laneUntil rows player ↔
      KeepsSummary playerCount laneUntil tail rows player := by
  rw [KeepsSummary, ← lastInterval_isSome_iff players, ← lastInterval_isSome_iff players,
    ← inferLane_laneSamples_eq_iff]
  cases here : lastInterval playerCount tail player.slot with
  | none =>
      cases all : lastInterval playerCount rows player.slot with
      | none => simp [summarize, here, all]
      | some row => simp [summarize, here, all]
  | some row =>
      have all := lastInterval_of_suffix within here
      simp only [summarize, here, all, Option.map_some, Option.some_inj, Option.isSome_some,
        true_and, forall_const]
      constructor
      · intro same
        have lane := congrArg PlayerSummary.lane same
        have role := congrArg PlayerSummary.laneRole same
        have roaming := congrArg PlayerSummary.isRoaming same
        exact Prod.ext lane (Prod.ext role roaming)
      · intro same
        rw [same]

/-- Two selections from one list, of which the second takes whatever the first takes, are equal
only if they agree on every element. -/
theorem filterMap_eq_filterMap_iff {α β : Type*} {first second : α → Option β} {list : List α}
    (more : ∀ value ∈ list, (first value).isSome = true → (second value).isSome = true) :
    list.filterMap first = list.filterMap second ↔ ∀ value ∈ list, first value = second value := by
  refine ⟨?_, fun same => List.filterMap_congr same⟩
  have shorter (rest : List α)
      (more : ∀ value ∈ rest, (first value).isSome = true → (second value).isSome = true) :
      (rest.filterMap first).length ≤ (rest.filterMap second).length := by
    rw [List.length_filterMap_eq_countP, List.length_filterMap_eq_countP]
    exact List.countP_mono_left more
  induction list with
  | nil => simp
  | cons value list ih =>
      intro same
      have later : ∀ other ∈ list, (first other).isSome = true → (second other).isSome = true :=
        fun other member => more other (List.mem_cons_of_mem value member)
      rw [List.forall_mem_cons]
      cases one : first value with
      | none =>
          cases two : second value with
          | none =>
              rw [List.filterMap_cons_none one, List.filterMap_cons_none two] at same
              exact ⟨rfl, ih later same⟩
          | some taken =>
              rw [List.filterMap_cons_none one, List.filterMap_cons_some two] at same
              have lengths := congrArg List.length same
              have bound := shorter list later
              simp only [List.length_cons] at lengths
              omega
      | some taken =>
          obtain ⟨other, two⟩ := Option.isSome_iff_exists.mp
            (more value List.mem_cons_self (by rw [one]; rfl))
          rw [List.filterMap_cons_some one, List.filterMap_cons_some two, List.cons.injEq] at same
          exact ⟨by rw [two, same.1], ih later same.2⟩

/-! ## The two results -/

/-- The same match: the same summaries and small tables, and the same rows in the same order once
the batches are put in front of what is left. -/
structure SameResult (streamed whole : Result Scalar Columns CombatLog Action Small) : Prop where
  playerSummary : streamed.playerSummary = whole.playerSummary
  barracksRadiant : streamed.barracksRadiant = whole.barracksRadiant
  barracksDire : streamed.barracksDire = whole.barracksDire
  barracksKnown : streamed.barracksKnown = whole.barracksKnown
  objectives : streamed.objectives = whole.objectives
  small : streamed.small = whole.small
  combatLog : streamed.combatLog.contents = whole.combatLog.contents
  intervals : streamed.intervals.contents = whole.intervals.contents
  actions : streamed.actions.contents = whole.actions.contents

/-- The interval rows behind the last flush. -/
def lastRows (rows : List (Interval Scalar Columns)) : List (Interval Scalar Columns) :=
  Buffer.remainder flushBatch rows

theorem parseReaderWithSink_playerSummary (start : World Scalar Small) (demo : List Event) :
    (parseReaderWithSink handle start demo).playerSummary =
      playerSummaries (unroll handle start demo).1
        (lastRows (intervalRows (unroll handle start demo).2)) := by
  rw [parseReaderWithSink, parseStream, decode_eq]
  change playerSummaries _ (Buffer.pushAll (some flushBatch) _).rows = _
  rw [Buffer.rows_pushAll_some (by decide)]
  rfl

theorem parseReader_playerSummary (start : World Scalar Small) (demo : List Event) :
    (parseReader handle start demo).playerSummary =
      playerSummaries (unroll handle start demo).1
        (intervalRows (unroll handle start demo).2) := by
  rw [parseReader, parseStream, decode_eq]
  change playerSummaries _ (Buffer.pushAll none _).rows = _
  rw [Buffer.rows_pushAll_none]
  rfl

/-- Everything but the summaries is the same in both parses of every demo. -/
theorem sameResult_iff_playerSummary (start : World Scalar Small) (demo : List Event) :
    SameResult (parseReaderWithSink handle start demo) (parseReader handle start demo) ↔
      (parseReaderWithSink handle start demo).playerSummary =
        (parseReader handle start demo).playerSummary := by
  refine ⟨SameResult.playerSummary, fun summaries => ?_⟩
  have decoded (sink : Bool) : parseStream sink handle start demo =
      (finalSession sink handle start demo).finishSummaries := by
    rw [parseStream, decode_eq]
  have contents {Row : Type} (rows : List Row) :
      (Buffer.pushAll (capacity true) rows).contents =
        (Buffer.pushAll (capacity false) rows).contents := by
    rw [Buffer.contents_pushAll, Buffer.contents_pushAll]
  rw [parseReaderWithSink, parseReader, decoded, decoded] at summaries ⊢
  exact
    { playerSummary := summaries
      barracksRadiant := rfl
      barracksDire := rfl
      barracksKnown := rfl
      objectives := rfl
      small := rfl
      combatLog := contents _
      intervals := contents _
      actions := contents _ }

/-- A parse with a sink yields the result of a parse without one exactly when the interval rows
behind the last flush keep the summary of every player. -/
theorem streaming_result_iff (handle : Callbacks Scalar Columns CombatLog Action Small Event)
    (start : World Scalar Small) (demo : List Event) :
    SameResult (parseReaderWithSink handle start demo) (parseReader handle start demo) ↔
      ∀ player, some player ∈ (unroll handle start demo).1.players →
        KeepsSummary (unroll handle start demo).1.players.length
          (unroll handle start demo).1.laneUntil
          (lastRows (intervalRows (unroll handle start demo).2))
          (intervalRows (unroll handle start demo).2) player := by
  rw [sameResult_iff_playerSummary, parseReaderWithSink_playerSummary, parseReader_playerSummary]
  generalize (unroll handle start demo).1 = world
  generalize intervalRows (unroll handle start demo).2 = rows
  have within : lastRows rows <:+ rows := Buffer.remainder_suffix flushBatch rows
  rw [playerSummaries, playerSummaries, filterMap_eq_filterMap_iff]
  · constructor
    · intro same player member
      have players := List.length_pos_of_mem member
      exact (summarize_eq_iff players within).mp (same (some player) member)
    · intro keeps player member
      have players := List.length_pos_of_mem member
      cases player with
      | none => rfl
      | some player => exact (summarize_eq_iff players within).mpr (keeps player member)
  · intro player _ found
    cases player with
    | none => cases found
    | some player => exact summarize_isSome_of_suffix within found

/-- A demo which never fills the interval table is parsed alike. -/
theorem streaming_result_of_short (handle : Callbacks Scalar Columns CombatLog Action Small Event)
    (start : World Scalar Small) (demo : List Event)
    (short : (intervalRows (unroll handle start demo).2).length < flushBatch) :
    (parseReaderWithSink handle start demo).playerSummary =
      (parseReader handle start demo).playerSummary := by
  have whole : lastRows (intervalRows (unroll handle start demo).2) =
      intervalRows (unroll handle start demo).2 := by
    rw [lastRows, Buffer.remainder, Nat.div_eq_of_lt short, Nat.mul_zero, List.drop_zero]
  rw [parseReaderWithSink_playerSummary, parseReader_playerSummary, whole]

/-! ## A match of 27 minutes -/

def intervalSeconds : Int := 2

/-- Ten players. What is left of the session is `nextInterval`. -/
def tenPlayers : World Int Int where
  players := (List.range 10).map fun index =>
    some
      { slot := index
        valveSlot := if index < 5 then index else 123 + index
        team := if index < 5 then 2 else 3
        posSamples := [] }
  laneUntil := 600
  gameState := 5
  clock := 0
  raxRadiant := 63
  raxDire := 63
  raxSeen := false
  objectives := []
  small := 1

/-- The row of a player whose hero has not been seen. -/
def bareInterval (time slot : Int) : Interval Int Unit where
  time := time
  slot := slot
  x := 0
  y := 0
  stuns := 0
  teamfightParticipation := 0
  towersKilled := 0
  roshansKilled := 0
  obsPlaced := 0
  senPlaced := 0
  campsStacked := 0
  creepsStacked := 0
  runePickups := 0
  firstbloodClaimed := 0
  columns := ()

/-- The rows of one `emitIntervals`. -/
def bareIntervals (clock : Int) : List (Interval Int Unit) :=
  (List.range 10).map fun index : Nat => bareInterval clock index

/-- One second: the clock moves on, and every player gets a row when an interval is due. -/
def tickWorld : Callbacks Int Unit Unit Unit Int Unit := fun _ world =>
  let clock := world.clock + 1
  if world.small ≤ clock then
    ({ world with
        clock
        small := world.small + intervalSeconds },
      (bareIntervals clock).map .interval)
  else ({ world with clock }, [])

/-- The world some intervals later. -/
def World.later (world : World Int Int) (intervals : Nat) : World Int Int :=
  { world with
    clock := world.clock + intervals * intervalSeconds
    small := world.small + intervals * intervalSeconds }

/-- Two seconds make one interval, with its rows at the first of them. -/
theorem unroll_two_seconds {world : World Int Int} (due : world.small = world.clock + 1) :
    unroll tickWorld world [(), ()] =
      (world.later 1, (bareIntervals (world.clock + 1)).map .interval) := by
  have first : world.small ≤ world.clock + 1 := due.le
  have second : ¬world.small + intervalSeconds ≤ world.clock + 1 + 1 := by
    rw [intervalSeconds]
    omega
  simp only [unroll, tickWorld, first, second, if_true, if_false, List.append_nil, World.later,
    Prod.mk.injEq, and_true, World.mk.injEq, true_and]
  rw [intervalSeconds]
  omega

/-- The rows of a demo of whole intervals: ten for each of them, at every second second. -/
theorem unroll_intervals (world : World Int Int) (due : world.small = world.clock + 1)
    (intervals : Nat) :
    (unroll tickWorld world (List.replicate (2 * intervals) ())).1 = world.later intervals ∧
      intervalRows (unroll tickWorld world (List.replicate (2 * intervals) ())).2 =
        (List.range intervals).flatMap fun index : Nat =>
          bareIntervals (world.clock + 1 + index * intervalSeconds) := by
  induction intervals with
  | zero => simp [unroll, World.later, intervalRows]
  | succ intervals ih =>
      obtain ⟨reached, rows⟩ := ih
      have due : (world.later intervals).small = (world.later intervals).clock + 1 := by
        simp only [World.later, due]
        omega
      rw [show 2 * (intervals + 1) = 2 * intervals + 2 from rfl, List.replicate_add,
        unroll_append, reached, show List.replicate 2 () = [(), ()] from rfl,
        unroll_two_seconds due]
      constructor
      · simp only [World.later, World.mk.injEq, true_and]
        push_cast
        constructor <;> ring
      · rw [intervalRows, List.filterMap_append, ← intervalRows, rows, List.range_succ,
          List.flatMap_append, List.filterMap_map]
        simp only [World.later, List.flatMap_singleton, Function.comp_def,
          List.filterMap_some]
        congr 2
        ring

/-- The interval rows of the ten players, some intervals into the demo. -/
def rowsOfTen (intervals : Nat) : List (Interval Int Unit) :=
  (List.range intervals).flatMap fun index : Nat => bareIntervals (1 + index * intervalSeconds)

theorem rowsOfTen_succ (intervals : Nat) :
    rowsOfTen (intervals + 1) =
      rowsOfTen intervals ++ bareIntervals (1 + intervals * intervalSeconds) := by
  simp [rowsOfTen, List.range_succ]

theorem length_rowsOfTen (intervals : Nat) : (rowsOfTen intervals).length = 10 * intervals := by
  induction intervals with
  | zero => rfl
  | succ intervals ih =>
      rw [rowsOfTen_succ, List.length_append, ih]
      simp only [bareIntervals, List.length_map, List.length_range]
      ring

/-- The slots which have a summary. -/
theorem slots_playerSummaries (world : World Int Int) (rows : List (Interval Int Unit)) :
    (playerSummaries world rows).map (·.slot) = world.players.filterMap fun player =>
      player.bind fun player =>
        (lastInterval world.players.length rows player.slot).map fun _ => player.valveSlot := by
  rw [playerSummaries, List.map_filterMap]
  refine List.filterMap_congr fun player _ => ?_
  cases player with
  | none => rfl
  | some player =>
      simp only [Option.bind_some, summarize, Option.map_map]
      rfl

/-- The 820th interval comes 27 minutes into the match. Its first two rows fill the table, which is
cut to nothing, and eight rows are left: the parse with a sink has no summary of the first two
players, the one in memory has. -/
theorem flushed_table_without_summaries :
    (parseReaderWithSink tickWorld tenPlayers (List.replicate 1640 ())).playerSummary.map
        (·.slot) = [2, 3, 4, 128, 129, 130, 131, 132] ∧
      (parseReader tickWorld tenPlayers (List.replicate 1640 ())).playerSummary.map
        (·.slot) = [0, 1, 2, 3, 4, 128, 129, 130, 131, 132] := by
  obtain ⟨reached, rows⟩ := unroll_intervals tenPlayers rfl 820
  rw [show 2 * 820 = 1640 from rfl] at reached rows
  have rows : intervalRows (unroll tickWorld tenPlayers (List.replicate 1640 ())).2 =
      rowsOfTen 819 ++ bareIntervals 1639 := rows.trans (rowsOfTen_succ 819)
  have length := length_rowsOfTen 819
  rw [parseReaderWithSink_playerSummary, parseReader_playerSummary, reached, rows,
    slots_playerSummaries, slots_playerSummaries]
  constructor
  · have left : lastRows (rowsOfTen 819 ++ bareIntervals 1639) = (bareIntervals 1639).drop 2 := by
      rw [lastRows, Buffer.remainder, List.length_append, length, List.drop_append, length,
        List.drop_of_length_le (by rw [length]; decide)]
      rfl
    rw [left]
    decide +kernel
  · have within : bareIntervals 1639 <:+ rowsOfTen 819 ++ bareIntervals 1639 :=
      List.suffix_append _ _
    have seen : ∀ player ∈ (tenPlayers.later 820).players, player.all fun player =>
        (lastInterval 10 (bareIntervals 1639) player.slot).isSome = true := by
      decide +kernel
    have summarized : ∀ player ∈ (tenPlayers.later 820).players,
        (player.bind fun player => (lastInterval (tenPlayers.later 820).players.length
          (rowsOfTen 819 ++ bareIntervals 1639) player.slot).map fun _ => player.valveSlot) =
          player.map (·.valveSlot) := by
      intro player member
      have found := seen player member
      cases player with
      | none => rfl
      | some player =>
          obtain ⟨row, last⟩ := Option.isSome_iff_exists.mp (of_decide_eq_true found)
          rw [Option.bind_some, show (tenPlayers.later 820).players.length = 10 from rfl,
            lastInterval_of_suffix within last]
          rfl
    rw [List.filterMap_congr summarized]
    rfl

end Parse
end DotaCollector
