import DotaCollector.Library.Paging
import DotaCollector.Matches.HistoryCrawl

/-!
# The crawl of a league's listing

A service with a descending listing, which serves pages of at least two matches, settles every
waiting id: the crawl finds those which are listed and misses the others. Each round either
classifies an id or leaves it behind the oldest match of the page, where the listing is shorter.
-/

namespace DotaCollector
namespace HistoryCrawl

open Paging

/-- A page of the listing from a start on. -/
def leaguePage (size : Nat) (listing : List MatchId) (start : Option MatchId) : HistoryPage where
  matchIds := (serve id size listing start).entries
  resultsRemaining := (serve id size listing start).remaining

variable {size : Nat} {listing : List MatchId} {start : Option MatchId} {match_id : MatchId}

theorem mem_of_mem_leaguePage (onPage : match_id ∈ (leaguePage size listing start).matchIds) :
    match_id ∈ listing :=
  mem_of_mem_onward (List.mem_of_mem_take onPage)

theorem leaguePage_remaining :
    0 < (leaguePage size listing start).resultsRemaining ↔
      (serve id size listing start).remaining ≠ 0 := by
  simp only [leaguePage]
  omega

/-- A page begins with the newest match from its start on. -/
theorem leaguePage_head (several : 2 ≤ size) :
    (leaguePage size listing start).matchIds.head? = (onward id listing start).head? := by
  rw [leaguePage, serve, List.head?_take, if_neg (by omega)]

/-- What follows a start and is not on the page is where the page leads on to. -/
theorem leaguePage_beyond (several : 2 ≤ size) (descending : Descending id listing)
    (ahead : match_id ∈ onward id listing start)
    (absent : match_id ∉ (leaguePage size listing start).matchIds) :
    (leaguePage size listing start).Beyond match_id := by
  have filled : (leaguePage size listing start).matchIds ≠ [] := by
    intro empty
    rw [onward_eq_nil (by omega) empty] at ahead
    exact List.not_mem_nil ahead
  obtain ⟨newest, oldest, head, last⟩ := exists_ends filled
  refine ⟨absent, leaguePage_remaining.mpr ?_, newest, head, oldest, last, ?_, ?_⟩
  · intro done
    rw [← serve_eq_onward done] at ahead
    exact absent ahead
  · rw [leaguePage_head several] at head
    exact descending.onward.le_head head ahead
  · exact not_le.mp (mt (descending.mem_serve_iff last ahead).mpr absent)

/-- A page which leads on does not end where it starts, and its oldest match leaves less of the
listing. -/
theorem leaguePage_shortens (several : 2 ≤ size) (descending : Descending id listing)
    (beyond : (leaguePage size listing start).Beyond match_id) :
    (leaguePage size listing start).matchIds.getLast? ≠ start ∧
      (onward id listing (leaguePage size listing start).matchIds.getLast?).length <
        (onward id listing start).length := by
  obtain ⟨-, more, -, -, oldest, last, -⟩ := beyond
  obtain ⟨newest, head, older⟩ :=
    descending.oldest_lt several (leaguePage_remaining.mp more) last
  have newest_mem : newest ∈ onward id listing start := List.mem_of_mem_head? head
  have oldest_mem : oldest ∈ onward id listing start :=
    List.mem_of_mem_take (List.mem_of_getLast? last)
  rw [Option.mem_def.mp last]
  constructor
  · rintro rfl
    exact absurd (mem_onward_some.mp newest_mem).2 (not_le.mpr older)
  · have below : ∀ first ∈ start, oldest ≤ first := by
      rintro first rfl
      exact (mem_onward_some.mp oldest_mem).2
    rw [← onward_onward below]
    refine List.length_filter_lt_length_iff_exists.mpr ⟨newest, newest_mem, ?_⟩
    simpa using older

/-! ## The crawl -/

variable {crawl : Crawl} {requests : Nat}

/-- From a start behind which every listed id that remains is still to come, the crawl lists the
listed ids and misses the others. -/
theorem crawlFrom_exact (several : 2 ≤ size) (descending : Descending id listing)
    (ahead : ∀ match_id ∈ crawl.remaining, match_id ∈ listing →
      match_id ∈ onward id listing crawl.startAtMatchId)
    (enough : (onward id listing crawl.startAtMatchId).length < requests) :
    ∃ final, crawlFrom (leaguePage size listing) requests crawl = some final ∧
      final.listed = crawl.listed ∪ crawl.remaining.filter (· ∈ listing) ∧
      final.missed ∪ final.remaining =
        crawl.missed ∪ crawl.remaining.filter (· ∉ listing) := by
  induction requests generalizing crawl with
  | zero => exact absurd enough (Nat.not_lt_zero _)
  | succ requests ih =>
      unfold crawlFrom
      by_cases nobody : crawl.remaining = ∅
      · simp [nobody]
      rw [if_neg nobody]
      have appears : ∀ match_id ∈ crawl.remaining, match_id ∈ listing →
          match_id ∉ (leaguePage size listing crawl.startAtMatchId).matchIds →
            (leaguePage size listing crawl.startAtMatchId).Beyond match_id :=
        fun match_id waits listed => leaguePage_beyond several descending (ahead _ waits listed)
      have listed_of_mem : ∀ match_id,
          match_id ∈ (leaguePage size listing crawl.startAtMatchId).matchIds →
            match_id ∈ listing := fun _ => mem_of_mem_leaguePage
      rcases round : crawlPage (leaguePage size listing) crawl with ⟨after, _ | _⟩
      · have settled : ∀ match_id ∈ crawl.remaining,
            ¬ (leaguePage size listing crawl.startAtMatchId).Beyond match_id :=
          fun match_id waits beyond => Bool.false_ne_true ((crawlPage_more_iff round).mpr
            ⟨match_id, waits, beyond, (leaguePage_shortens several descending beyond).1⟩)
        obtain ⟨listed, missed, remaining⟩ := crawlPage_classifies round
        refine ⟨after, rfl, ?_, ?_⟩
        · rw [listed]
          congr 1
          refine Finset.filter_congr fun match_id waits => ⟨listed_of_mem match_id, ?_⟩
          intro listed
          by_contra absent
          exact settled match_id waits (appears match_id waits listed absent)
        · rw [missed, remaining, Finset.union_assoc]
          congr 1
          ext match_id
          simp only [Finset.mem_union, Finset.mem_filter]
          grind
      · obtain ⟨match_id, waits, beyond, -⟩ := (crawlPage_more_iff round).mp rfl
        obtain ⟨-, next⟩ := crawlPage_next round
        obtain ⟨listed, missed, remaining⟩ := crawlPage_classifies round
        have shorter := (leaguePage_shortens several descending beyond).2
        rw [← next] at shorter
        have later : ∀ match_id ∈ after.remaining, match_id ∈ listing →
            match_id ∈ onward id listing after.startAtMatchId := by
          intro match_id waits listed
          rw [remaining] at waits
          obtain ⟨-, -, -, -, oldest, last, -, below⟩ := (Finset.mem_filter.mp waits).2
          rw [next, Option.mem_def.mp last]
          exact mem_onward_some.mpr ⟨listed, le_of_lt below⟩
        obtain ⟨final, ends, found, rest⟩ := ih later (by omega)
        refine ⟨final, ends, ?_, ?_⟩
        · rw [found, listed, remaining, Finset.union_assoc]
          congr 1
          ext match_id
          simp only [Finset.mem_union, Finset.mem_filter]
          grind
        · rw [rest, missed, remaining, Finset.union_assoc]
          congr 1
          ext match_id
          simp only [Finset.mem_union, Finset.mem_filter]
          grind

/-- The crawl ends, and each waiting id is found or missed according to whether it is listed. -/
theorem crawlWaitingHistory_exact (several : 2 ≤ size) (descending : Descending id listing)
    (waiting : List MatchId) (enough : listing.length < requests) :
    ∃ result, crawlWaitingHistory (leaguePage size listing) waiting requests = some result ∧
      result.found = waiting.toFinset.filter (· ∈ listing) ∧
      result.missed = waiting.toFinset.filter (· ∉ listing) ∧
      Disjoint result.found result.missed ∧ result.found ∪ result.missed = waiting.toFinset := by
  have ahead : ∀ match_id ∈ waiting.toFinset, match_id ∈ listing →
      match_id ∈ onward id listing none := fun _ _ listed => listed
  obtain ⟨final, ends, found, rest⟩ :
      ∃ final, crawlFrom (leaguePage size listing) requests { remaining := waiting.toFinset } =
          some final ∧
        final.listed = ∅ ∪ waiting.toFinset.filter (· ∈ listing) ∧
        final.missed ∪ final.remaining = ∅ ∪ waiting.toFinset.filter (· ∉ listing) :=
    crawlFrom_exact several descending ahead enough
  rw [Finset.empty_union] at found rest
  refine ⟨_, by rw [crawlWaitingHistory, ends]; rfl, found, rest, ?_, ?_⟩
  · simp only [found, rest]
    exact Finset.disjoint_filter_filter_not _ _ _
  · simp only [found, rest]
    exact Finset.filter_union_filter_not_eq _ _

/-- Four waiting ids and a listing of three in pages of two: two are listed, two are not. -/
theorem crawlWaitingHistory_exact_three :
    ∃ result, crawlWaitingHistory (leaguePage 2 [9, 7, 4]) [8, 4, 9, 1] 4 = some result ∧
      result.found = {4, 9} ∧ result.missed = {8, 1} := by
  have several : 2 ≤ 2 := le_rfl
  have descending : Descending id [9, 7, 4] := by decide
  have enough : [9, 7, 4].length < 4 := by decide
  obtain ⟨result, ends, found, missed, -⟩ :=
    crawlWaitingHistory_exact several descending [8, 4, 9, 1] enough
  exact ⟨result, ends, found, missed⟩

end HistoryCrawl
end DotaCollector
