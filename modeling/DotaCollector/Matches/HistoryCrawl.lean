import Mathlib.Data.Finset.Dedup
import Mathlib.Data.Finset.Filter
import Mathlib.Data.Finset.Lattice.Fold
import Mathlib.Data.Finset.Lattice.Basic
import Mathlib.Data.Finset.SDiff
import DotaCollector.Matches.Row

/-!
# The crawl for waiting matches

Live matches that have finished wait for the history listing of their league. The crawl reads the
listing page by page, each from the oldest id of the page before, until every waiting id is found
on a page or passed. It ends exactly when every waiting id is settled by one of the pages; a
service which goes to and fro between ids above a waiting one keeps the crawl going for ever.
-/

namespace DotaCollector
namespace HistoryCrawl

/-- A page of the listing; of a match only the id is of interest here. -/
structure HistoryPage where
  matchIds : List MatchId
  resultsRemaining : Int

structure PagePlan where
  foundIds : List MatchId
  missedIds : Finset MatchId
  continueAtMatchId : Option MatchId

/-- What a page tells about the waiting ids. -/
def historyWaiterPagePlan (waiting : Finset MatchId) (pageMatchIds : List MatchId)
    (resultsRemaining : Int) : PagePlan :=
  let foundIds := pageMatchIds.filter (· ∈ waiting)
  let remaining := waiting.filter (· ∉ foundIds)
  if remaining = ∅ then { foundIds, missedIds := ∅, continueAtMatchId := none }
  else
    match pageMatchIds.head?, pageMatchIds.getLast? with
    | some newest, some oldest =>
        let missedIds := remaining.filter fun id => newest < id ∨ oldest ≤ id
        let older := remaining.filter fun id => ¬ (newest < id ∨ oldest ≤ id)
        if older = ∅ then { foundIds, missedIds, continueAtMatchId := none }
        else if resultsRemaining ≤ 0 then
          { foundIds, missedIds := missedIds ∪ older, continueAtMatchId := none }
        else { foundIds, missedIds, continueAtMatchId := some oldest }
    | _, _ => { foundIds, missedIds := remaining, continueAtMatchId := none }

/-- The variables of the loop. -/
structure Crawl where
  remaining : Finset MatchId
  listed : Finset MatchId := ∅
  missed : Finset MatchId := ∅
  startAtMatchId : Option MatchId := none
  pageCount : Nat := 0
  deriving DecidableEq

/-- One round of the loop, and whether there is another. -/
def crawlPage (serve : Option MatchId → HistoryPage) (crawl : Crawl) : Crawl × Bool :=
  let page := serve crawl.startAtMatchId
  let plan := historyWaiterPagePlan crawl.remaining page.matchIds page.resultsRemaining
  let after : Crawl :=
    { remaining := (crawl.remaining \ plan.foundIds.toFinset) \ plan.missedIds
      listed := crawl.listed ∪ (page.matchIds.filter (· ∈ crawl.remaining)).toFinset
      missed := crawl.missed ∪ plan.missedIds
      startAtMatchId := crawl.startAtMatchId
      pageCount := crawl.pageCount + 1 }
  if plan.continueAtMatchId = none ∨ plan.continueAtMatchId = crawl.startAtMatchId then
    (after, false)
  else ({ after with startAtMatchId := plan.continueAtMatchId }, true)

/-- The loop, for so many requests. -/
def crawlFrom (serve : Option MatchId → HistoryPage) : Nat → Crawl → Option Crawl
  | 0, crawl => if crawl.remaining = ∅ then some crawl else none
  | requests + 1, crawl =>
      if crawl.remaining = ∅ then some crawl
      else
        match crawlPage serve crawl with
        | (after, true) => crawlFrom serve requests after
        | (after, false) => some after

structure CrawlResult where
  found : Finset MatchId
  missed : Finset MatchId
  pageCount : Nat
  deriving DecidableEq

/-- The crawl, if so many requests are enough. -/
def crawlWaitingHistory (serve : Option MatchId → HistoryPage) (waiting : List MatchId)
    (requests : Nat) : Option CrawlResult :=
  (crawlFrom serve requests { remaining := waiting.toFinset }).map fun crawl =>
    { found := crawl.listed
      missed := crawl.missed ∪ crawl.remaining
      pageCount := crawl.pageCount }

/-! ## One page -/

/-- The id is not on the page, and the page leads on to where it may be. -/
def HistoryPage.Beyond (page : HistoryPage) (id : MatchId) : Prop :=
  id ∉ page.matchIds ∧ 0 < page.resultsRemaining ∧
    ∃ newest ∈ page.matchIds.head?, ∃ oldest ∈ page.matchIds.getLast?, id ≤ newest ∧ id < oldest

instance (page : HistoryPage) (id : MatchId) : Decidable (page.Beyond id) :=
  inferInstanceAs (Decidable (_ ∧ _))

/-- The page found nothing about the id and goes on somewhere else. -/
def HistoryPage.PassesOn (page : HistoryPage) (start : Option MatchId) (id : MatchId) : Prop :=
  page.Beyond id ∧ page.matchIds.getLast? ≠ start

instance (page : HistoryPage) (start : Option MatchId) (id : MatchId) :
    Decidable (page.PassesOn start id) :=
  inferInstanceAs (Decidable (_ ∧ _))

variable {waiting : Finset MatchId} {page : HistoryPage}

theorem foundIds_eq :
    (historyWaiterPagePlan waiting page.matchIds page.resultsRemaining).foundIds =
      page.matchIds.filter (· ∈ waiting) := by
  unfold historyWaiterPagePlan
  dsimp only
  repeat' split
  all_goals rfl

theorem remaining_eq (waiting : Finset MatchId) (ids : List MatchId) :
    (waiting.filter fun id => id ∉ ids.filter (· ∈ waiting)) = waiting.filter (· ∉ ids) := by
  refine Finset.filter_congr fun id member => ?_
  simp [member]

/-- A page which is not empty has both ends. -/
theorem exists_ends {ids : List MatchId} (filled : ids ≠ []) :
    ∃ newest oldest, ids.head? = some newest ∧ ids.getLast? = some oldest :=
  ⟨ids.head filled, ids.getLast filled, List.head?_eq_some_head filled,
    List.getLast?_eq_some_getLast filled⟩

/-- An id is missed when it waits, is not on the page and the page does not lead on to it. -/
theorem mem_missedIds {id : MatchId} :
    id ∈ (historyWaiterPagePlan waiting page.matchIds page.resultsRemaining).missedIds ↔
      id ∈ waiting ∧ id ∉ page.matchIds ∧ ¬ page.Beyond id := by
  simp only [historyWaiterPagePlan, remaining_eq, HistoryPage.Beyond]
  split
  case isTrue nobody =>
    have absent := Finset.filter_eq_empty_iff.mp nobody
    simpa using fun waits away => absurd away (absent waits)
  case isFalse =>
    by_cases empty : page.matchIds = []
    · simp [empty]
    obtain ⟨newest, oldest, head, last⟩ := exists_ends empty
    simp only [head, last, Option.mem_def, Option.some.injEq, exists_eq_left']
    split
    case isTrue nobody =>
      have none := Finset.filter_eq_empty_iff.mp nobody
      simp only [Finset.mem_filter] at none ⊢
      grind
    case isFalse =>
      split
      case isTrue done =>
        simp only [Finset.mem_union, Finset.mem_filter]
        grind
      case isFalse more =>
        simp only [Finset.mem_filter]
        grind

/-- The crawl goes on while the page leads on to a waiting id. -/
theorem continueAtMatchId_eq_some {cursor : MatchId} :
    (historyWaiterPagePlan waiting page.matchIds page.resultsRemaining).continueAtMatchId =
        some cursor ↔
      page.matchIds.getLast? = some cursor ∧ ∃ id ∈ waiting, page.Beyond id := by
  simp only [historyWaiterPagePlan, remaining_eq, HistoryPage.Beyond]
  split
  case isTrue nobody =>
    have absent := Finset.filter_eq_empty_iff.mp nobody
    simp only [reduceCtorEq, false_iff]
    rintro ⟨-, id, waits, away, -⟩
    exact absent waits away
  case isFalse =>
    by_cases empty : page.matchIds = []
    · simp [empty]
    obtain ⟨newest, oldest, head, last⟩ := exists_ends empty
    simp only [head, last, Option.mem_def, Option.some.injEq, exists_eq_left']
    split
    case isTrue nobody =>
      have none := Finset.filter_eq_empty_iff.mp nobody
      simp only [Finset.mem_filter] at none
      grind
    case isFalse somebody =>
      obtain ⟨id, older⟩ := Finset.nonempty_iff_ne_empty.mpr somebody
      simp only [Finset.mem_filter] at older
      split
      case isTrue done =>
        grind
      case isFalse more =>
        grind

theorem missedIds_eq :
    (historyWaiterPagePlan waiting page.matchIds page.resultsRemaining).missedIds =
      waiting.filter fun id => id ∉ page.matchIds ∧ ¬ page.Beyond id := by
  ext id
  rw [mem_missedIds, Finset.mem_filter]

/-- What is neither found nor missed is where the page leads on to. -/
theorem remaining_after :
    let plan := historyWaiterPagePlan waiting page.matchIds page.resultsRemaining
    (waiting \ plan.foundIds.toFinset) \ plan.missedIds = waiting.filter page.Beyond := by
  ext id
  simp only [Finset.mem_sdiff, Finset.mem_filter, mem_missedIds, foundIds_eq, List.mem_toFinset,
    List.mem_filter, decide_eq_true_eq, not_and, not_not]
  constructor
  · rintro ⟨⟨waits, absent⟩, beyond⟩
    exact ⟨waits, beyond waits fun onPage => absent onPage waits⟩
  · rintro ⟨waits, beyond⟩
    exact ⟨⟨waits, fun onPage => absurd onPage beyond.1⟩, fun _ _ => beyond⟩

/-! ## One round -/

variable {serve : Option MatchId → HistoryPage} {crawl after : Crawl} {more : Bool}

/-- The waiting ids on the page are listed, and of the others those remain which the page leads on
to. -/
theorem crawlPage_classifies (round : crawlPage serve crawl = (after, more)) :
    after.listed = crawl.listed ∪
        crawl.remaining.filter (· ∈ (serve crawl.startAtMatchId).matchIds) ∧
      after.missed = crawl.missed ∪ crawl.remaining.filter (fun id =>
        id ∉ (serve crawl.startAtMatchId).matchIds ∧ ¬ (serve crawl.startAtMatchId).Beyond id) ∧
      after.remaining = crawl.remaining.filter (serve crawl.startAtMatchId).Beyond := by
  have listed : ∀ ids : List MatchId, (ids.filter (· ∈ crawl.remaining)).toFinset =
      crawl.remaining.filter (· ∈ ids) := by
    intro ids
    ext id
    simp [and_comm]
  unfold crawlPage at round
  simp only [remaining_after, listed] at round
  simp only [missedIds_eq] at round
  split at round
  all_goals
    obtain ⟨rfl, -⟩ := Prod.mk.inj round
    exact ⟨rfl, rfl, rfl⟩

/-- There is another round exactly while the page passes some waiting id on. -/
theorem crawlPage_more_iff (round : crawlPage serve crawl = (after, more)) :
    more = true ↔ ∃ id ∈ crawl.remaining,
      (serve crawl.startAtMatchId).PassesOn crawl.startAtMatchId id := by
  unfold crawlPage at round
  dsimp only at round
  split at round
  case isTrue stops =>
    obtain ⟨-, rfl⟩ := Prod.mk.inj round
    simp only [Bool.false_eq_true, false_iff]
    rintro ⟨id, waits, beyond, elsewhere⟩
    have ⟨_, _, _, _, oldest, last, _⟩ := beyond
    have next := continueAtMatchId_eq_some.mpr ⟨last, id, waits, beyond⟩
    rw [next, ← Option.mem_def.mp last] at stops
    rcases stops with none | same
    · simp [Option.mem_def.mp last] at none
    · exact elsewhere same
  case isFalse going =>
    obtain ⟨-, rfl⟩ := Prod.mk.inj round
    simp only [true_iff]
    obtain ⟨none, elsewhere⟩ := not_or.mp going
    obtain ⟨cursor, next⟩ := Option.ne_none_iff_exists'.mp none
    obtain ⟨last, id, waits, beyond⟩ := continueAtMatchId_eq_some.mp next
    rw [next, ← last] at elsewhere
    exact ⟨id, waits, beyond, elsewhere⟩

/-- The next round has the ids which were passed on, and starts at the oldest id of the page. -/
theorem crawlPage_next (round : crawlPage serve crawl = (after, true)) :
    after.remaining = crawl.remaining.filter
        ((serve crawl.startAtMatchId).PassesOn crawl.startAtMatchId) ∧
      after.startAtMatchId = (serve crawl.startAtMatchId).matchIds.getLast? := by
  obtain ⟨id, waits, beyond, elsewhere⟩ := (crawlPage_more_iff round).mp rfl
  constructor
  · rw [(crawlPage_classifies round).2.2]
    exact Finset.filter_congr fun id _ => ⟨fun beyond => ⟨beyond, elsewhere⟩, And.left⟩
  · unfold crawlPage at round
    dsimp only at round
    split at round
    case isTrue => cases round
    case isFalse going =>
      obtain ⟨rfl, -⟩ := Prod.mk.inj round
      obtain ⟨cursor, next⟩ := Option.ne_none_iff_exists'.mp (not_or.mp going).1
      rw [next, (continueAtMatchId_eq_some.mp next).1]

/-! ## The whole crawl -/

/-- The start of each request, while the crawl goes on. -/
def startOf (serve : Option MatchId → HistoryPage) : Nat → Option MatchId
  | 0 => none
  | request + 1 => (serve (startOf serve request)).matchIds.getLast?

/-- So many requests are enough when each waiting id is settled by one of their pages. -/
theorem crawlFrom_isSome_iff {first requests : Nat}
    (start : crawl.startAtMatchId = startOf serve first) :
    (crawlFrom serve requests crawl).isSome = true ↔
      ∀ id ∈ crawl.remaining, ∃ request < requests,
        ¬ (serve (startOf serve (first + request))).PassesOn (startOf serve (first + request))
          id := by
  induction requests generalizing crawl first with
  | zero =>
      unfold crawlFrom
      split <;> simp_all [Finset.eq_empty_iff_forall_notMem]
  | succ requests ih =>
      unfold crawlFrom
      by_cases nobody : crawl.remaining = ∅
      · simp [nobody]
      rw [if_neg nobody]
      rcases round : crawlPage serve crawl with ⟨after, _ | _⟩
      · have settled := mt (crawlPage_more_iff round).mpr Bool.false_ne_true
        simp only [Option.isSome_some, true_iff]
        intro id waits
        refine ⟨0, Nat.succ_pos requests, fun passed => settled ⟨id, waits, ?_⟩⟩
        rw [start]
        exact passed
      · obtain ⟨remaining, next⟩ := crawlPage_next round
        rw [start] at remaining next
        replace next : after.startAtMatchId = startOf serve (first + 1) := next
        simp only [ih next, remaining]
        constructor
        · intro later id waits
          by_cases passed : (serve (startOf serve first)).PassesOn (startOf serve first) id
          · obtain ⟨request, early, settled⟩ := later id (Finset.mem_filter.mpr ⟨waits, passed⟩)
            refine ⟨request + 1, Nat.succ_lt_succ early, ?_⟩
            rwa [Nat.add_comm request, ← Nat.add_assoc]
          · exact ⟨0, Nat.succ_pos requests, passed⟩
        · intro settled id waits
          obtain ⟨waits, passed⟩ := Finset.mem_filter.mp waits
          obtain ⟨_ | request, early, here⟩ := settled id waits
          · exact absurd passed here
          · refine ⟨request, Nat.lt_of_succ_lt_succ early, ?_⟩
            rwa [Nat.add_assoc, Nat.add_comm 1]

theorem crawlWaitingHistory_isSome_iff {waiting : List MatchId} {requests : Nat} :
    (crawlWaitingHistory serve waiting requests).isSome = true ↔
      ∀ id ∈ waiting, ∃ request < requests,
        ¬ (serve (startOf serve request)).PassesOn (startOf serve request) id := by
  have start : ({ remaining := waiting.toFinset } : Crawl).startAtMatchId = startOf serve 0 := rfl
  rw [crawlWaitingHistory, Option.isSome_map, crawlFrom_isSome_iff start]
  simp

/-- The crawl of some waiting ids ends exactly when each of them is settled by some page: one which
has it, begins below it, ends at or below it, is empty, says that nothing remains, or ends where it
starts. -/
theorem crawlWaitingHistory_ends_iff (serve : Option MatchId → HistoryPage)
    (waiting : List MatchId) :
    (∃ requests, (crawlWaitingHistory serve waiting requests).isSome = true) ↔
      ∀ id ∈ waiting, ∃ request,
        ¬ (serve (startOf serve request)).PassesOn (startOf serve request) id := by
  simp only [crawlWaitingHistory_isSome_iff]
  constructor
  · rintro ⟨requests, settled⟩ id waits
    obtain ⟨request, -, here⟩ := settled id waits
    exact ⟨request, here⟩
  · intro settled
    choose! request here using settled
    refine ⟨waiting.toFinset.sup request + 1, fun id waits => ⟨request id, ?_, here id waits⟩⟩
    exact Nat.lt_succ_of_le (Finset.le_sup (List.mem_toFinset.mpr waits))

/-- Two pages which lead to each other. -/
def backAndForth : Option MatchId → HistoryPage
  | none => { matchIds := [10], resultsRemaining := 1 }
  | some start => { matchIds := [if start = 10 then 9 else 10], resultsRemaining := 1 }

/-- The guard compares a cursor only with the one before it: a match below both pages keeps the
crawl between them. -/
theorem crawl_without_end : ∃ pages : Option MatchId → HistoryPage,
    ∀ requests, crawlWaitingHistory pages [1] requests = none := by
  refine ⟨backAndForth, fun requests => ?_⟩
  have passed : ∀ start, (backAndForth start).PassesOn start 1 := by
    rintro (_ | start)
    · decide
    · by_cases ten : start = 10
      · subst ten
        decide
      · simp [HistoryPage.PassesOn, HistoryPage.Beyond, backAndForth, ten, Ne.symm ten]
  rw [← Option.not_isSome_iff_eq_none, crawlWaitingHistory_isSome_iff]
  intro settled
  obtain ⟨request, -, here⟩ := settled 1 List.mem_cons_self
  exact here (passed _)

end HistoryCrawl
end DotaCollector
