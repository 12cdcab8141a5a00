import DotaCollector.Matches.Row

/-!
# Phases of a match

The pure decisions of the pipeline: which statuses a live sighting must keep, when the live
feeds are done with a match, and how the history waiter spends its budget of misses.
-/

namespace DotaCollector

/-- Phases a live-feed sighting must not pull back to `live`. -/
def keepOnLiveSighting : List MatchStatus :=
  [.detailsReady, .awaitingReplay, .replayStored, .replayUnavailable, .parsed]

/-- Every live feed which lists the match has missed it `threshold` times. -/
def liveFeedsDone (sources : List IngestSource) (liveMisses topMisses threshold : Nat) : Bool :=
  let hasLive := sources.contains .liveLeague
  let hasTop := sources.contains .topLive
  if !hasLive && !hasTop then false
  else if hasLive && liveMisses < threshold then false
  else if hasTop && topMisses < threshold then false
  else true

/-- The poll limits and intervals of the history waiter. -/
structure HistoryBudget where
  fastLimit : Nat
  slowLimit : Nat
  fastMs : Int
  slowMs : Int

/-- The status a miss asks for: keep waiting, or give up. -/
inductive HistoryVerdict where
  | awaitingHistory
  | failed
  deriving DecidableEq, Repr

/-- The outcome of one missed history poll. -/
structure HistoryPollState where
  fastCount : Nat
  slowCount : Nat
  status : HistoryVerdict
  nextPollMs : Int
  errorKind : Option ErrorKind
  deriving DecidableEq

/-- Spend the fast polls, then the slow ones, then give up. -/
def advanceHistoryMiss (fastCount slowCount : Nat) (budget : HistoryBudget) : HistoryPollState :=
  if fastCount < budget.fastLimit then
    { fastCount := fastCount + 1
      slowCount
      status := .awaitingHistory
      nextPollMs := budget.fastMs
      errorKind := none }
  else if slowCount < budget.slowLimit then
    { fastCount
      slowCount := slowCount + 1
      status := .awaitingHistory
      nextPollMs := budget.slowMs
      errorKind := none }
  else
    { fastCount
      slowCount
      status := .failed
      nextPollMs := 0
      errorKind := some .historyTimeout }

/-- A miss gives up exactly when both budgets are spent. -/
theorem advanceHistoryMiss_failed_iff (fastCount slowCount : Nat) (budget : HistoryBudget) :
    (advanceHistoryMiss fastCount slowCount budget).status = .failed ↔
      budget.fastLimit ≤ fastCount ∧ budget.slowLimit ≤ slowCount := by
  rw [advanceHistoryMiss]
  split
  · simp only [reduceCtorEq, false_iff]
    omega
  · split
    · simp only [reduceCtorEq, false_iff]
      omega
    · simp only [true_iff]
      omega

/-- The place of a status in the pipeline: discovery, details, replay, parsed. -/
def MatchStatus.rank : MatchStatus → Nat
  | .discovered | .live | .notStarted | .awaitingHistory | .awaitingDetails | .failed => 0
  | .detailsReady => 1
  | .awaitingReplay | .replayStored | .replayUnavailable => 2
  | .parsed => 3

/-- A live sighting keeps exactly the statuses past discovery. -/
theorem mem_keepOnLiveSighting_iff (status : MatchStatus) :
    status ∈ keepOnLiveSighting ↔ 0 < status.rank := by
  cases status <;> simp [keepOnLiveSighting, MatchStatus.rank]

end DotaCollector
