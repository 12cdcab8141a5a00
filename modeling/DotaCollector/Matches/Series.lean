import DotaCollector.Library.Nullable
import DotaCollector.Library.Table
import DotaCollector.Matches.Row
import Mathlib.Data.List.Basic
import Mathlib.Data.List.Induction

/-!
# The score of a series

Each match of two known teams is counted to a series: to the one which Valve names, to an unended
one of the same teams on either side, or to one with a made-up id. The first call writes the row.
Later ones merge the wins column by column, whichever team is on the side.
-/

namespace DotaCollector
namespace Series

open Nullable

structure SeriesRow where
  leagueId : Option Int
  radiantTeamId : Option Int
  direTeamId : Option Int
  seriesType : Int
  radiantWins : Nat
  direWins : Nat
  firstMatchId : MatchId
  startedAt : Option Time
  endedAt : Option Time
  updatedAt : Time

structure SeriesInput where
  valveSeriesId : Option Int := none
  leagueId : Option Int
  radiantTeamId : Option Int
  direTeamId : Option Int
  seriesType : Option Int := none
  radiantWins : Option Nat := none
  direWins : Option Nat := none
  matchId : MatchId
  startTime : Option Int := none

/-- The ids of the rows, and the rows. -/
structure State where
  ids : List Int := []
  series : Table Int SeriesRow := Table.empty

/-- A call, at the time of its transaction. -/
structure Call where
  now : Time
  input : SeriesInput

/-- `CASE … WHEN 1 THEN 2 WHEN 2 THEN 3 ELSE NULL END`. -/
def winsNeeded : Int → Option Nat
  | 1 => some 2
  | 2 => some 3
  | _ => none

/-- `GREATEST(radiant, dire) >= CASE … END`, which is not true of `NULL`. -/
def reaches (radiantWins direWins : Nat) (seriesType : Int) : Bool :=
  (winsNeeded seriesType).any (· ≤ max radiantWins direWins)

/-- The first four bytes of a digest, behind the bit of a made-up id. -/
def syntheticSeriesId (sha256 : String → UInt32) (leagueId teamA teamB : Int)
    (firstMatchId : MatchId) : Int :=
  let low := min teamA teamB
  let high := max teamA teamB
  let n := sha256 s!"{leagueId}:{low}:{high}:{firstMatchId}"
  ((1 <<< 48 ||| n.toNat : Nat) : Int)

/-- An unended row of the two teams, on either side, of the last eight hours. -/
def SeriesRow.current (row : SeriesRow) (now : Time) (leagueId radiant dire : Int) : Bool :=
  row.leagueId = some leagueId &&
    ((row.radiantTeamId = some radiant && row.direTeamId = some dire) ||
      (row.radiantTeamId = some dire && row.direTeamId = some radiant)) &&
    row.endedAt.isNone && now - 8 * 60 * 60 * 1000 < row.updatedAt

/-- `ORDER BY updated_at DESC LIMIT 1`. -/
def existing (state : State) (now : Time) (leagueId radiant dire : Int) : Option Int :=
  let updatedAt := fun id => ((state.series id).map SeriesRow.updatedAt).getD 0
  let found := state.ids.filter fun id =>
    (state.series id).any (·.current now leagueId radiant dire)
  (found.mergeSort fun left right => updatedAt right ≤ updatedAt left).head?

/-- The series which a call resolves to. -/
def seriesIdFor (sha256 : String → UInt32) (state : State) (now : Time) (input : SeriesInput) :
    Option Int :=
  let radiant := input.radiantTeamId.getD 0
  let dire := input.direTeamId.getD 0
  match input.valveSeriesId.filter (0 < ·), input.leagueId with
  | some seriesId, _ => some seriesId
  | none, none => none
  | none, some leagueId =>
      if 0 < radiant ∧ 0 < dire then
        some ((existing state now leagueId radiant dire).getD
          (syntheticSeriesId sha256 leagueId radiant dire input.matchId))
      else none

/-- The row of the `INSERT`. -/
def SeriesInput.row (input : SeriesInput) (now : Time) : SeriesRow where
  leagueId := input.leagueId
  radiantTeamId := nullif (some (input.radiantTeamId.getD 0)) 0
  direTeamId := nullif (some (input.direTeamId.getD 0)) 0
  seriesType := input.seriesType.getD 0
  radiantWins := input.radiantWins.getD 0
  direWins := input.direWins.getD 0
  firstMatchId := input.matchId
  startedAt := (input.startTime.filter (0 < ·)).map (· * 1000)
  endedAt :=
    if reaches (input.radiantWins.getD 0) (input.direWins.getD 0) (input.seriesType.getD 0) then
      some now
    else none
  updatedAt := now

/-- The `ON CONFLICT` part. The type of the series is never `NULL`, so the new one counts. -/
def SeriesRow.merge (now : Time) (excluded series : SeriesRow) : SeriesRow :=
  let radiantWins := max series.radiantWins excluded.radiantWins
  let direWins := max series.direWins excluded.direWins
  { series with
    leagueId := coalesce excluded.leagueId series.leagueId
    radiantWins, direWins
    endedAt :=
      if reaches radiantWins direWins excluded.seriesType then coalesce series.endedAt (some now)
      else series.endedAt
    updatedAt := now }

def upsertSeriesForMatch (sha256 : String → UInt32) (state : State) (call : Call) :
    Option Int × State :=
  match seriesIdFor sha256 state call.now call.input with
  | none => (none, state)
  | some seriesId =>
      let excluded := call.input.row call.now
      (some seriesId,
        { ids := if seriesId ∈ state.ids then state.ids else state.ids ++ [seriesId]
          series := state.series.upsert seriesId excluded (excluded.merge call.now) })

def upsertAll (sha256 : String → UInt32) (state : State) (calls : List Call) : State :=
  calls.foldl (fun state call => (upsertSeriesForMatch sha256 state call).2) state

/-- What a call reports for a series. -/
def report (sha256 : String → UInt32) (seriesId : Int) (state : State) (call : Call) :
    List SeriesInput :=
  if (upsertSeriesForMatch sha256 state call).1 = some seriesId then [call.input] else []

/-- What has been reported for a series. -/
def reported (sha256 : String → UInt32) (seriesId : Int) : State → List Call → List SeriesInput
  | _, [] => []
  | state, call :: calls =>
      report sha256 seriesId state call ++
        reported sha256 seriesId (upsertSeriesForMatch sha256 state call).2 calls

/-! ## Properties -/

/-- The highest value of a list, 0 for the empty one. -/
def peak (value : SeriesInput → Nat) (inputs : List SeriesInput) : Nat :=
  (inputs.map value).foldr max 0

def SeriesInput.radiant (input : SeriesInput) : Nat := input.radiantWins.getD 0

def SeriesInput.dire (input : SeriesInput) : Nat := input.direWins.getD 0

/-- The wins which are reported for a team, on whichever side it is. -/
def SeriesInput.wins (team : Int) (input : SeriesInput) : Nat :=
  if input.radiantTeamId = some team then input.radiant
  else if input.direTeamId = some team then input.dire
  else 0

/-- The row counts the wins of its teams, and it has ended only behind a call by which one of them
had the wins which the reported type of the series asks for. -/
structure ScoreFollowsTeams (inputs : List SeriesInput) (row : SeriesRow) : Prop where
  radiant : ∀ team ∈ row.radiantTeamId, row.radiantWins = peak (SeriesInput.wins team) inputs
  dire : ∀ team ∈ row.direTeamId, row.direWins = peak (SeriesInput.wins team) inputs
  ended : row.endedAt.isSome → ∃ front input back needed team,
    inputs = front ++ input :: back ∧ winsNeeded (input.seriesType.getD 0) = some needed ∧
      (team ∈ row.radiantTeamId ∨ team ∈ row.direTeamId) ∧
      needed ≤ peak (SeriesInput.wins team) (front ++ [input])

/-- All calls are about the same two teams. -/
def SameTeams (first second : Int) (inputs : List SeriesInput) : Prop :=
  ∀ input ∈ inputs, (input.radiantTeamId = some first ∧ input.direTeamId = some second) ∨
    (input.radiantTeamId = some second ∧ input.direTeamId = some first)

/-- The calls with the teams on the sides of the first call. -/
def upright (inputs : List SeriesInput) : List SeriesInput :=
  inputs.filter fun input => input.radiantTeamId = inputs.head?.bind SeriesInput.radiantTeamId

/-- The calls with the teams on the other sides. -/
def swapped (inputs : List SeriesInput) : List SeriesInput :=
  inputs.filter fun input => !(input.radiantTeamId = inputs.head?.bind SeriesInput.radiantTeamId)

/-- The swapped calls report as much for one team as for the other, or for neither more than the
upright ones report for each. -/
def SidesAgree (inputs : List SeriesInput) : Prop :=
  peak SeriesInput.radiant (swapped inputs) = peak SeriesInput.dire (swapped inputs) ∨
    max (peak SeriesInput.radiant (swapped inputs)) (peak SeriesInput.dire (swapped inputs)) ≤
      min (peak SeriesInput.radiant (upright inputs)) (peak SeriesInput.dire (upright inputs))

instance (inputs : List SeriesInput) : Decidable (SidesAgree inputs) :=
  inferInstanceAs (Decidable (_ ∨ _))

/-! ## Highest values -/

variable {inputs : List SeriesInput} {value other : SeriesInput → Nat}

theorem peak_append (value : SeriesInput → Nat) (front back : List SeriesInput) :
    peak value (front ++ back) = max (peak value front) (peak value back) := by
  induction front with
  | nil => simp [peak]
  | cons input front ih =>
      simp only [peak, List.cons_append, List.map_cons, List.foldr_cons] at ih ⊢
      rw [ih, Nat.max_assoc]

theorem peak_singleton (value : SeriesInput → Nat) (input : SeriesInput) :
    peak value [input] = value input := Nat.max_zero _

theorem peak_congr (same : ∀ input ∈ inputs, value input = other input) :
    peak value inputs = peak other inputs := by
  rw [peak, peak, List.map_congr_left same]

/-- The highest value is that of the calls with a property or that of the others. -/
theorem peak_filter (value : SeriesInput → Nat) (chosen : SeriesInput → Bool)
    (inputs : List SeriesInput) :
    peak value inputs = max (peak value (inputs.filter chosen))
      (peak value (inputs.filter fun input => !chosen input)) := by
  induction inputs with
  | nil => rfl
  | cons input inputs ih =>
      have front : ∀ inputs, peak value (input :: inputs) = max (value input) (peak value inputs) :=
        fun _ => rfl
      cases kept : chosen input with
      | false =>
          simp only [List.filter_cons, kept, front, ih]
          simp only [Bool.false_eq_true, if_false, Bool.not_false, if_true, front]
          omega
      | true =>
          simp only [List.filter_cons, kept, front, ih]
          simp only [if_true, Bool.not_true, Bool.false_eq_true, if_false, front]
          omega

/-! ## The teams of a call -/

variable {first second : Int}

theorem peak_wins_first (teams : SameTeams first second inputs) :
    peak (SeriesInput.wins first) inputs =
      max (peak SeriesInput.radiant (inputs.filter (·.radiantTeamId = some first)))
        (peak SeriesInput.dire (inputs.filter (!·.radiantTeamId = some first))) := by
  rw [peak_filter _ (·.radiantTeamId = some first)]
  congr 1
  · refine peak_congr fun input member => ?_
    rw [SeriesInput.wins, if_pos (of_decide_eq_true (List.mem_filter.mp member).2)]
  · refine peak_congr fun input member => ?_
    obtain ⟨listed, away⟩ := List.mem_filter.mp member
    have other : input.radiantTeamId ≠ some first := by simpa using away
    have side := (teams input listed).resolve_left fun same => other same.1
    rw [SeriesInput.wins, if_neg other, if_pos side.2]

theorem peak_wins_second (teams : SameTeams first second inputs) (ne : first ≠ second) :
    peak (SeriesInput.wins second) inputs =
      max (peak SeriesInput.dire (inputs.filter (·.radiantTeamId = some first)))
        (peak SeriesInput.radiant (inputs.filter (!·.radiantTeamId = some first))) := by
  rw [peak_filter _ (·.radiantTeamId = some first)]
  congr 1
  · refine peak_congr fun input member => ?_
    obtain ⟨listed, home⟩ := List.mem_filter.mp member
    have side := of_decide_eq_true home
    have away : input.radiantTeamId ≠ some second := by
      rw [side]
      exact fun same => ne (Option.some.inj same)
    have dire := (teams input listed).resolve_right fun same => away same.1
    rw [SeriesInput.wins, if_neg away, if_pos dire.2]
  · refine peak_congr fun input member => ?_
    obtain ⟨listed, away⟩ := List.mem_filter.mp member
    have other : input.radiantTeamId ≠ some first := by simpa using away
    have side := (teams input listed).resolve_left fun same => other same.1
    rw [SeriesInput.wins, if_pos side.1]

/-- The better side and the better team have the same wins. -/
theorem max_peak_wins (teams : SameTeams first second inputs) (ne : first ≠ second) :
    max (peak SeriesInput.radiant inputs) (peak SeriesInput.dire inputs) =
      max (peak (SeriesInput.wins first) inputs) (peak (SeriesInput.wins second) inputs) := by
  have radiant := peak_filter SeriesInput.radiant (·.radiantTeamId = some first) inputs
  have dire := peak_filter SeriesInput.dire (·.radiantTeamId = some first) inputs
  rw [radiant, dire, peak_wins_first teams, peak_wins_second teams ne]
  omega

/-! ## The row -/

theorem reaches_iff {radiantWins direWins : Nat} {seriesType : Int} :
    reaches radiantWins direWins seriesType = true ↔
      ∃ needed, winsNeeded seriesType = some needed ∧ needed ≤ max radiantWins direWins := by
  simp [reaches, Option.any_eq_true]

/-- What the row holds behind calls for one series. -/
structure Counts (inputs : List SeriesInput) (row : SeriesRow) : Prop where
  radiantTeam : row.radiantTeamId = inputs.head?.bind SeriesInput.radiantTeamId
  direTeam : row.direTeamId = inputs.head?.bind SeriesInput.direTeamId
  radiantWins : row.radiantWins = peak SeriesInput.radiant inputs
  direWins : row.direWins = peak SeriesInput.dire inputs
  ended : row.endedAt.isSome → ∃ front input back needed, inputs = front ++ input :: back ∧
    winsNeeded (input.seriesType.getD 0) = some needed ∧
      needed ≤ max (peak SeriesInput.radiant (front ++ [input]))
        (peak SeriesInput.dire (front ++ [input]))

theorem nullif_known {team : Option Int} (known : ∃ id, 0 < id ∧ team = some id) :
    nullif (some (team.getD 0)) 0 = team := by
  obtain ⟨id, positive, rfl⟩ := known
  refine nullif_of_ne fun zero => ?_
  cases Option.some.inj zero
  exact Int.lt_irrefl 0 positive

theorem counts_row {input : SeriesInput} (now : Time)
    (radiant : ∃ id, 0 < id ∧ input.radiantTeamId = some id)
    (dire : ∃ id, 0 < id ∧ input.direTeamId = some id) : Counts [input] (input.row now) where
  radiantTeam := nullif_known radiant
  direTeam := nullif_known dire
  radiantWins := (peak_singleton SeriesInput.radiant input).symm
  direWins := (peak_singleton SeriesInput.dire input).symm
  ended set := by
    rw [SeriesInput.row] at set
    split at set
    · obtain ⟨needed, asked, enough⟩ := reaches_iff.mp ‹_›
      refine ⟨[], input, [], needed, rfl, asked, ?_⟩
      rw [List.nil_append, peak_singleton, peak_singleton]
      exact enough
    · cases set

theorem Counts.merge {row : SeriesRow} (counts : Counts inputs row) (present : inputs ≠ [])
    (now : Time) (input : SeriesInput) :
    Counts (inputs ++ [input]) ((input.row now).merge now row) where
  radiantTeam := by
    rw [List.head?_append_of_ne_nil _ present]
    exact counts.radiantTeam
  direTeam := by
    rw [List.head?_append_of_ne_nil _ present]
    exact counts.direTeam
  radiantWins := by
    rw [peak_append, peak_singleton, ← counts.radiantWins]
    rfl
  direWins := by
    rw [peak_append, peak_singleton, ← counts.direWins]
    rfl
  ended set := by
    change (if reaches (max row.radiantWins (input.radiantWins.getD 0))
        (max row.direWins (input.direWins.getD 0)) (input.seriesType.getD 0) then
      coalesce row.endedAt (some now) else row.endedAt).isSome at set
    split at set
    · obtain ⟨needed, asked, enough⟩ := reaches_iff.mp ‹_›
      refine ⟨inputs, input, [], needed, rfl, asked, ?_⟩
      rw [peak_append, peak_append, peak_singleton, peak_singleton, ← counts.radiantWins,
        ← counts.direWins]
      exact enough
    · obtain ⟨front, earlier, back, needed, rfl, asked, enough⟩ := counts.ended set
      exact ⟨front, earlier, back ++ [input], needed, by simp, asked, enough⟩

/-! ## All calls -/

variable {sha256 : String → UInt32} {seriesId : Int} {start : State} {calls : List Call}

/-- A call writes the row it resolves to, and no other. -/
theorem series_upsertSeriesForMatch (state : State) (call : Call) :
    (upsertSeriesForMatch sha256 state call).2.series seriesId =
      if (upsertSeriesForMatch sha256 state call).1 = some seriesId then
        some (((state.series seriesId).map ((call.input.row call.now).merge call.now)).getD
          (call.input.row call.now))
      else state.series seriesId := by
  unfold upsertSeriesForMatch
  cases seriesIdFor sha256 state call.now call.input with
  | none => rfl
  | some found =>
      dsimp only
      rcases eq_or_ne found seriesId with rfl | ne
      · rw [Table.upsert_self, if_pos rfl]
      · rw [Table.upsert_of_ne ne.symm, if_neg fun same => ne (Option.some.inj same)]

theorem reported_snoc (start : State) (calls : List Call) (call : Call) :
    reported sha256 seriesId start (calls ++ [call]) = reported sha256 seriesId start calls ++
      report sha256 seriesId (upsertAll sha256 start calls) call := by
  induction calls generalizing start with
  | nil => exact List.append_nil _
  | cons first calls ih =>
      rw [List.cons_append, reported, ih, reported, List.append_assoc]
      rfl

theorem upsertAll_snoc (start : State) (calls : List Call) (call : Call) :
    upsertAll sha256 start (calls ++ [call]) =
      (upsertSeriesForMatch sha256 (upsertAll sha256 start calls) call).2 := by
  rw [upsertAll, List.foldl_append]
  rfl

/-- Behind any calls, the row counts what was reported for it. -/
theorem counts_upsertAll (absent : start.series seriesId = none) (known : 0 < first ∧ 0 < second)
    (teams : SameTeams first second (reported sha256 seriesId start calls)) :
    (reported sha256 seriesId start calls = [] ∧
        (upsertAll sha256 start calls).series seriesId = none) ∨
      (reported sha256 seriesId start calls ≠ [] ∧
        ∃ row, (upsertAll sha256 start calls).series seriesId = some row ∧
          Counts (reported sha256 seriesId start calls) row) := by
  induction calls using List.reverseRecOn with
  | nil => exact .inl ⟨rfl, absent⟩
  | append_singleton calls call ih =>
      rw [upsertAll_snoc, series_upsertSeriesForMatch]
      rw [reported_snoc, report] at teams
      rw [reported_snoc, report]
      have before := ih fun input member => teams input (List.mem_append_left _ member)
      by_cases resolved :
          (upsertSeriesForMatch sha256 (upsertAll sha256 start calls) call).1 = some seriesId
      · rw [if_pos resolved] at teams
        rw [if_pos resolved, if_pos resolved]
        refine .inr ⟨List.append_ne_nil_of_right_ne_nil _ (List.cons_ne_nil _ _), _, rfl, ?_⟩
        rcases before with ⟨none, fresh⟩ | ⟨present, row, found, counts⟩
        · rw [none, fresh]
          have sides := teams call.input (List.mem_append_right _ (List.mem_singleton_self _))
          rcases sides with ⟨radiant, dire⟩ | ⟨radiant, dire⟩
          · exact counts_row call.now ⟨first, known.1, radiant⟩ ⟨second, known.2, dire⟩
          · exact counts_row call.now ⟨second, known.2, radiant⟩ ⟨first, known.1, dire⟩
        · rw [found]
          exact counts.merge present call.now call.input
      · rw [if_neg resolved, if_neg resolved, List.append_nil]
        exact before

/-- The teams of the row are those of the first call. -/
theorem Counts.sides {row : SeriesRow} (counts : Counts inputs row) (present : inputs ≠ [])
    (ne : first ≠ second) (teams : SameTeams first second inputs) :
    ∃ home away, SameTeams home away inputs ∧ home ≠ away ∧ row.radiantTeamId = some home ∧
      row.direTeamId = some away := by
  rw [counts.radiantTeam, counts.direTeam]
  cases inputs with
  | nil => exact (present rfl).elim
  | cons input inputs =>
      rcases teams input List.mem_cons_self with ⟨radiant, dire⟩ | ⟨radiant, dire⟩
      · exact ⟨first, second, teams, ne, radiant, dire⟩
      · exact ⟨second, first, fun other member => (teams other member).symm, ne.symm, radiant, dire⟩

/-- The score follows the teams exactly when the sides agree. -/
theorem Counts.follows_iff {row : SeriesRow} (counts : Counts inputs row) {home away : Int}
    (teams : SameTeams home away inputs) (ne : home ≠ away)
    (radiantTeam : row.radiantTeamId = some home) (direTeam : row.direTeamId = some away) :
    ScoreFollowsTeams inputs row ↔ SidesAgree inputs := by
  have side : inputs.head?.bind SeriesInput.radiantTeamId = some home :=
    counts.radiantTeam.symm.trans radiantTeam
  have radiant := peak_filter SeriesInput.radiant (·.radiantTeamId = some home) inputs
  have dire := peak_filter SeriesInput.dire (·.radiantTeamId = some home) inputs
  have first := peak_wins_first teams
  have second := peak_wins_second teams ne
  have scores : SidesAgree inputs ↔ row.radiantWins = peak (SeriesInput.wins home) inputs ∧
      row.direWins = peak (SeriesInput.wins away) inputs := by
    rw [SidesAgree, swapped, upright, side, counts.radiantWins, counts.direWins, radiant, dire,
      first, second]
    omega
  rw [scores]
  constructor
  · exact fun follows => ⟨follows.radiant home radiantTeam, follows.dire away direTeam⟩
  · rintro ⟨homeWins, awayWins⟩
    refine ⟨fun team member => ?_, fun team member => ?_, fun set => ?_⟩
    · cases Option.some.inj (radiantTeam.symm.trans member)
      exact homeWins
    · cases Option.some.inj (direTeam.symm.trans member)
      exact awayWins
    · obtain ⟨front, input, back, needed, split, asked, enough⟩ := counts.ended set
      have within : SameTeams home away (front ++ [input]) := fun other member =>
        teams other (by
          rw [split, List.append_cons]
          exact List.mem_append_left _ member)
      rw [max_peak_wins within ne] at enough
      rcases le_max_iff.mp enough with enough | enough
      · exact ⟨front, input, back, needed, home, split, asked, .inl radiantTeam, enough⟩
      · exact ⟨front, input, back, needed, away, split, asked, .inr direTeam, enough⟩

/-- For every sequence of calls which resolve to a series of two known teams, the row counts the
wins of its teams exactly when the swapped calls report as much for one team as for the other, or
for neither more than the calls with the sides of the row report for each. -/
theorem score_follows_teams_iff (sha256 : String → UInt32) (start : State) (calls : List Call)
    (seriesId first second : Int) (absent : start.series seriesId = none)
    (known : 0 < first ∧ 0 < second) (ne : first ≠ second)
    (teams : SameTeams first second (reported sha256 seriesId start calls))
    (present : reported sha256 seriesId start calls ≠ []) :
    ∃ row, (upsertAll sha256 start calls).series seriesId = some row ∧
      (ScoreFollowsTeams (reported sha256 seriesId start calls) row ↔
        SidesAgree (reported sha256 seriesId start calls)) := by
  obtain ⟨-, row, found, counts⟩ :=
    (counts_upsertAll absent known teams).resolve_left fun none => present none.1
  refine ⟨row, found, ?_⟩
  obtain ⟨home, away, sides, apart, radiant, dire⟩ := counts.sides present ne teams
  exact counts.follows_iff sides apart radiant dire

/-- Two games of a series which Valve has named, with the sides swapped in between. -/
def twoGames (radiantWins direWins : Option Nat) : List Call :=
  [{ now := 0
     input := { valveSeriesId := some 77, leagueId := some 1, radiantTeamId := some 100
                direTeamId := some 200, seriesType := some 1, radiantWins := some 0
                direWins := some 0, matchId := 1 } },
   { now := 3600000
     input := { valveSeriesId := some 77, leagueId := some 1, radiantTeamId := some 200
                direTeamId := some 100, seriesType := some 1, radiantWins, direWins
                matchId := 2 } }]

theorem reported_twoGames (radiantWins direWins : Option Nat) :
    reported (fun _ => 0) 77 {} (twoGames radiantWins direWins) =
      (twoGames radiantWins direWins).map Call.input := rfl

theorem sameTeams_twoGames (radiantWins direWins : Option Nat) :
    SameTeams 100 200 ((twoGames radiantWins direWins).map Call.input) := by
  intro input member
  simp only [twoGames, List.map_cons, List.map_nil, List.mem_cons, List.not_mem_nil,
    or_false] at member
  rcases member with rfl | rfl
  · exact .inl ⟨rfl, rfl⟩
  · exact .inr ⟨rfl, rfl⟩

/-- The second game is listed without wins. -/
theorem score_follows_teams_twoGames :
    ∃ row, (upsertAll (fun _ => 0) {} (twoGames none none)).series 77 = some row ∧
      ScoreFollowsTeams ((twoGames none none).map Call.input) row := by
  obtain ⟨row, found, follows⟩ := score_follows_teams_iff (fun _ => 0) {} (twoGames none none) 77
    100 200 rfl ⟨by decide, by decide⟩ (by decide)
    (by rw [reported_twoGames]; exact sameTeams_twoGames none none)
    (by rw [reported_twoGames]; decide)
  rw [reported_twoGames] at follows
  exact ⟨row, found, follows.mpr (.inl rfl)⟩

/-- Team 100 wins the first game and plays the second one as dire: its win is counted to team
200. -/
theorem win_counted_to_other_team :
    let calls := twoGames (some 0) (some 1)
    let inputs := reported (fun _ => 0) 77 {} calls
    SameTeams 100 200 inputs ∧ inputs.map (SeriesInput.wins 100) = [0, 1] ∧
      inputs.map (SeriesInput.wins 200) = [0, 0] ∧
      ∃ row, (upsertAll (fun _ => 0) {} calls).series 77 = some row ∧
        row.radiantTeamId = some 100 ∧ row.radiantWins = 0 ∧ row.direWins = 1 ∧
        ¬ ScoreFollowsTeams inputs row := by
  intro calls inputs
  refine ⟨sameTeams_twoGames _ _, by decide, by decide, _, rfl, rfl, rfl, rfl, fun follows => ?_⟩
  have wins : 0 = 1 := follows.radiant 100 rfl
  cases wins

end Series
end DotaCollector
