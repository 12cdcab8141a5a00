import Mathlib.Logic.Function.Basic
import DotaCollector.Library.Schedule
import DotaCollector.Matches.Row

/-!
# The change cache of the live poll

A tick writes only the games whose digest differs from the cached one. The cache is memory of the
process, and the tick changes it while its transaction is open: a digest is remembered once the
rows of a game are written, and a finished match is forgotten before the commit. When a later
statement fails, the rows are rolled back and the cache is not.
-/

namespace DotaCollector
namespace Live
namespace ChangeCache

variable {Digest : Type}

/-- A listed game: its digest, the accounts of its roster, and whether its scoreboard has
statistics. -/
structure LiveGame (Digest : Type) where
  match_id : MatchId
  digest : Digest
  roster : List Int := []
  hasLiveStats : Bool := false

/-- The calls which reach the database. -/
inductive Call (Digest : Type) where
  | upsertTeam (match_id : MatchId)
  | upsertSeriesForMatch (match_id : MatchId)
  | matchPostgameWritten (match_id : MatchId)
  | noteLiveFeedSeen (match_id : MatchId)
  | touchMatchLive (match_id : MatchId) (digest : Digest)
  | upsertPlayer (accountId : Int)
  | upsertMatchPlayers (match_id : MatchId)
  | replaceMatchDraft (match_id : MatchId)
  | fillMatchPlayerLinks (match_id : MatchId)
  | noteLiveClock (match_id : MatchId)
  | noteLiveFeedMisses
  | finishMissingLiveMatches

/-- A step of the transaction: a call, or a change of the cache. -/
inductive Step (Digest : Type) where
  | call (call : Call Digest)
  | set (match_id : MatchId) (digest : Digest)
  | delete (match_id : MatchId)

/-- The cache, and the digest of what the rows of each match were last written from. -/
structure Poller (Digest : Type) where
  hashes : MatchId → Option Digest := fun _ => none
  rows : MatchId → Option Digest := fun _ => none

/-- One tick: the listed games, each once; the matches which the tick finishes; and the step at
which it fails, if it does. The step after the last one is the commit. -/
structure Tick (Digest : Type) where
  games : List (LiveGame Digest)
  distinct : (games.map LiveGame.match_id).Nodup := by decide
  finished : List MatchId := []
  failsAt : Option Nat := none

/-! ## The steps of a tick -/

/-- What is written for a game which has changed. -/
def changedSteps (game : LiveGame Digest) : List (Step Digest) :=
  [.call (.matchPostgameWritten game.match_id),
    .call (.touchMatchLive game.match_id game.digest)] ++
  game.roster.map (fun accountId => .call (.upsertPlayer accountId)) ++
  [.call (.upsertMatchPlayers game.match_id), .call (.replaceMatchDraft game.match_id),
    .call (.fillMatchPlayerLinks game.match_id), .set game.match_id game.digest,
    .call (.noteLiveClock game.match_id)] ++
  if game.hasLiveStats then [.call (.upsertMatchPlayers game.match_id)] else []

def gameSteps [DecidableEq Digest] (hashes : MatchId → Option Digest) (game : LiveGame Digest) :
    List (Step Digest) :=
  [.call (.upsertTeam game.match_id), .call (.upsertTeam game.match_id),
    .call (.upsertSeriesForMatch game.match_id)] ++
  if hashes game.match_id ≠ some game.digest then changedSteps game
  else [.call (.noteLiveFeedSeen game.match_id), .call (.noteLiveClock game.match_id)]

/-- The steps of the transaction. A game is listed once, so the cache at the beginning of the tick
tells whether it has changed. -/
def Tick.steps [DecidableEq Digest] (hashes : MatchId → Option Digest) (tick : Tick Digest) :
    List (Step Digest) :=
  tick.games.flatMap (gameSteps hashes) ++
  if tick.games.isEmpty then []
  else [.call .noteLiveFeedMisses, .call .finishMissingLiveMatches] ++ tick.finished.map .delete

/-- What a step does to the cache, and to the rows as the transaction sees them. -/
def Step.apply (poller : Poller Digest) : Step Digest → Poller Digest
  | .call (.touchMatchLive match_id digest) =>
      { poller with rows := Function.update poller.rows match_id (some digest) }
  | .call _ => poller
  | .set match_id digest =>
      { poller with hashes := Function.update poller.hashes match_id (some digest) }
  | .delete match_id => { poller with hashes := Function.update poller.hashes match_id none }

/-- One tick: a failure takes the rows back, and only the rows. -/
def runPollLiveGames [DecidableEq Digest] (poller : Poller Digest) (tick : Tick Digest) :
    Poller Digest :=
  match tick.failsAt with
  | none => (tick.steps poller.hashes).foldl Step.apply poller
  | some step =>
      { ((tick.steps poller.hashes).take step).foldl Step.apply poller with rows := poller.rows }

/-- A tick is always possible. -/
def next [DecidableEq Digest] (poller : Poller Digest) (tick : Tick Digest) :
    Option (Poller Digest) :=
  some (runPollLiveGames poller tick)

/-! ## Properties -/

/-- Every cached digest is that of rows which were committed. -/
def Committed (poller : Poller Digest) : Prop :=
  ∀ match_id digest, poller.hashes match_id = some digest → poller.rows match_id = some digest

/-- The step leaves a cache as it is. -/
def Step.Leaves (hashes : MatchId → Option Digest) : Step Digest → Prop
  | .call _ => True
  | .set match_id digest => hashes match_id = some digest
  | .delete match_id => hashes match_id = none

instance [DecidableEq Digest] (hashes : MatchId → Option Digest) :
    (step : Step Digest) → Decidable (step.Leaves hashes)
  | .call _ => .isTrue trivial
  | .set match_id digest => inferInstanceAs (Decidable (hashes match_id = some digest))
  | .delete match_id => inferInstanceAs (Decidable (hashes match_id = none))

/-- When the tick fails, nothing in the cache has changed yet. -/
def FailsEarly [DecidableEq Digest] (poller : Poller Digest) (tick : Tick Digest) : Prop :=
  ∀ failed ∈ tick.failsAt, ∀ step ∈ (tick.steps poller.hashes).take failed,
    step.Leaves poller.hashes

instance [DecidableEq Digest] (poller : Poller Digest) (tick : Tick Digest) :
    Decidable (FailsEarly poller tick) :=
  inferInstanceAs (Decidable (∀ failed ∈ tick.failsAt, ∀ step ∈ _, _))

/-! ## Runs of steps -/

theorem Step.Leaves.hashes {step : Step Digest} {poller : Poller Digest}
    (leaves : step.Leaves poller.hashes) : (step.apply poller).hashes = poller.hashes := by
  cases step with
  | call call => cases call <;> rfl
  | set match_id digest => exact Function.update_eq_self_iff.mpr leaves.symm
  | delete match_id => exact Function.update_eq_self_iff.mpr leaves.symm

theorem hashes_foldl_of_leaves {steps : List (Step Digest)} {poller : Poller Digest}
    (leaves : ∀ step ∈ steps, step.Leaves poller.hashes) :
    (steps.foldl Step.apply poller).hashes = poller.hashes := by
  induction steps generalizing poller with
  | nil => rfl
  | cons step steps ih =>
      obtain ⟨first, rest⟩ := List.forall_mem_cons.mp leaves
      have kept := first.hashes
      rw [List.foldl_cons, ih (by rwa [kept]), kept]

/-- Calls which write no rows of a match change nothing here. -/
theorem foldl_of_idle {steps : List (Step Digest)} {poller : Poller Digest}
    (idle : ∀ step ∈ steps, ∀ poller, step.apply poller = poller) :
    steps.foldl Step.apply poller = poller := by
  induction steps with
  | nil => rfl
  | cons step steps ih =>
      obtain ⟨first, rest⟩ := List.forall_mem_cons.mp idle
      rw [List.foldl_cons, first, ih rest]

/-- A changed game has its rows and its digest set together. -/
theorem foldl_changedSteps (game : LiveGame Digest) (poller : Poller Digest) :
    (changedSteps game).foldl Step.apply poller =
      { hashes := Function.update poller.hashes game.match_id (some game.digest)
        rows := Function.update poller.rows game.match_id (some game.digest) } := by
  have roster : ∀ poller : Poller Digest, (game.roster.map fun accountId =>
      (Step.call (.upsertPlayer accountId) : Step Digest)).foldl Step.apply poller = poller := by
    intro poller
    refine foldl_of_idle fun step member poller => ?_
    obtain ⟨accountId, -, rfl⟩ := List.mem_map.mp member
    rfl
  unfold changedSteps
  simp only [List.foldl_append, roster]
  split <;> rfl

theorem Committed.delete {poller : Poller Digest} (committed : Committed poller)
    (finished : List MatchId) :
    Committed ((finished.map Step.delete).foldl Step.apply poller) := by
  induction finished generalizing poller with
  | nil => exact committed
  | cons gone finished ih =>
      refine ih fun match_id digest cached => ?_
      by_cases same : match_id = gone
      · subst same
        simp [Step.apply] at cached
      · simp only [Step.apply, Function.update_of_ne same] at cached ⊢
        exact committed match_id digest cached

/-! ## One tick -/

variable [DecidableEq Digest]

/-- A tick which fails early leaves the cache and the rows as they were. -/
theorem runPollLiveGames_of_failsEarly {poller : Poller Digest} {tick : Tick Digest}
    (early : FailsEarly poller tick) (fails : tick.failsAt ≠ none) :
    runPollLiveGames poller tick = poller := by
  obtain ⟨failed, at_failed⟩ := Option.ne_none_iff_exists'.mp fails
  have kept := hashes_foldl_of_leaves (early failed at_failed)
  unfold runPollLiveGames
  rw [at_failed]
  dsimp only
  rw [kept]

theorem Committed.game {poller : Poller Digest} (committed : Committed poller)
    (hashes : MatchId → Option Digest) (game : LiveGame Digest) :
    Committed ((gameSteps hashes game).foldl Step.apply poller) := by
  unfold gameSteps
  rw [List.foldl_append]
  split
  · rw [foldl_changedSteps]
    intro match_id digest cached
    by_cases same : match_id = game.match_id
    · subst same
      simpa using cached
    · simp only [Function.update_of_ne same] at cached ⊢
      exact committed match_id digest cached
  · exact committed

/-- A tick which commits remembers only what it has written. -/
theorem Committed.tick {poller : Poller Digest} (committed : Committed poller)
    (hashes : MatchId → Option Digest) (tick : Tick Digest) :
    Committed ((tick.steps hashes).foldl Step.apply poller) := by
  have games : ∀ games : List (LiveGame Digest), ∀ poller : Poller Digest, Committed poller →
      Committed ((games.flatMap (gameSteps hashes)).foldl Step.apply poller) := by
    intro games
    induction games with
    | nil => exact fun _ committed => committed
    | cons game games ih =>
        intro poller committed
        rw [List.flatMap_cons, List.foldl_append]
        exact ih _ (committed.game hashes game)
  unfold Tick.steps
  rw [List.foldl_append]
  split
  · exact games _ _ committed
  · rw [List.foldl_append]
    exact (games tick.games _ committed).delete tick.finished

/-! ## Every sequence of ticks -/

theorem Committed.next {poller after : Poller Digest} {tick : Tick Digest}
    (committed : Committed poller) (early : FailsEarly poller tick)
    (step : next poller tick = some after) : Committed after := by
  obtain rfl := Option.some.inj step
  by_cases fails : tick.failsAt = none
  · unfold runPollLiveGames
    rw [fails]
    exact committed.tick poller.hashes tick
  · rwa [runPollLiveGames_of_failsEarly early fails]

/-- Where every failing tick fails before its first change of the cache, after each tick every
cached digest is that of committed rows, and a tick which rolled back has changed nothing. -/
theorem cache_committed {ticks front back : List (Tick Digest)} {tick : Tick Digest}
    {poller after : Poller Digest} (early : Schedule.Throughout next FailsEarly {} ticks)
    (split : ticks = front ++ tick :: back) (before : Schedule.run next {} front = some poller)
    (step : next poller tick = some after) :
    Committed after ∧ (tick.failsAt ≠ none → after.hashes = poller.hashes) := by
  have start : Committed ({} : Poller Digest) := fun _ _ cached => by cases cached
  have here : FailsEarly poller tick :=
    Schedule.throughout_iff.mp early front tick back poller split before
  rw [split] at early
  have committed : Committed poller :=
    early.front.run_invariant (fun committed early step => committed.next early step) start before
  refine ⟨committed.next here step, fun fails => ?_⟩
  obtain rfl := Option.some.inj step
  rw [runPollLiveGames_of_failsEarly here fails]

/-- A tick which commits a game, and a second one which fails before the game it found is
written. -/
def early : List (Tick Nat) :=
  [{ games := [{ match_id := 1, digest := 5 }] },
    { games := [{ match_id := 1, digest := 5 }, { match_id := 2, digest := 6 }],
      failsAt := some 12 }]

theorem cache_committed_early :
    ∃ poller after, Schedule.run next {} [early[0]] = some poller ∧
      next poller early[1] = some after ∧ Committed after ∧ after.hashes = poller.hashes := by
  have throughout : Schedule.Throughout next FailsEarly {} early := by decide
  have split : early = [early[0]] ++ early[1] :: [] := rfl
  refine ⟨_, _, rfl, rfl, ?_⟩
  have kept := cache_committed throughout split rfl rfl
  exact ⟨kept.1, kept.2 (by decide)⟩

/-- Two games, the second of which takes the first transaction down with its first call. -/
def failing : List (Tick Nat) :=
  let games : List (LiveGame Nat) :=
    [{ match_id := 1, digest := 5 }, { match_id := 2, digest := 6 }]
  [{ games, failsAt := some 10 }, { games }]

/-- The digest of the first game survives its rows, and the next tick takes the game for
unchanged. -/
theorem rolled_back_digest_survives :
    ∃ first second, next {} (failing[0]) = some first ∧ next first (failing[1]) = some second ∧
      ¬ Committed first ∧ first.hashes 1 ≠ none ∧
      second.hashes 1 = some 5 ∧ second.rows 1 = none ∧ second.rows 2 = some 6 := by
  refine ⟨_, _, rfl, rfl, fun committed => ?_, by decide, by decide, by decide, by decide⟩
  have written := committed 1 5 (by decide)
  revert written
  decide

end ChangeCache
end Live
end DotaCollector
