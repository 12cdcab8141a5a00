import DotaCollector.LeagueWalk.System

/-!
# What the league walk has covered

Every match of the last completed newest page's listing is persisted, or older than the tail. A
newest page establishes this for its own listing, and a deep page keeps it as long as its update
finds the tail which its run has read. A stale update moves the tail past matches which nobody has
fetched.
-/

namespace DotaCollector
namespace LeagueWalk

open Paging (Descending)

/-- The tail is a listed match. -/
def TailIn (tail : Option MatchId) (listing : List HistoryMatch) : Prop :=
  ∀ match_id ∈ tail, ∃ entry ∈ listing, entry.match_id = match_id

/-- What a run may rely on. -/
def Phase.Sound (settings : Settings) (listing persisted : List HistoryMatch) : Phase → Prop
  | .idle => True
  | .ready plan => TailIn plan.tail listing
  | .fetched plan seen => seen <:+ listing ∧ TailIn plan.tail seen
  | .persisted plan seen =>
      seen <:+ listing ∧ TailIn plan.tail seen ∧
        ∀ entry ∈ (plan.page settings seen).entries, entry ∈ persisted

/-- The invariant of the walk. -/
structure Covered (settings : Settings) (state : State) : Prop where
  descending : Descending HistoryMatch.match_id state.listing
  grown : state.snapshot <:+ state.listing
  tail : TailIn state.row.history_tail_match_id state.listing
  covered : ∀ entry ∈ state.snapshot, entry ∈ state.persisted ∨
    ∃ tail ∈ state.row.history_tail_match_id, entry.match_id < tail
  exhausted : state.row.history_exhausted = true → ∀ entry ∈ state.snapshot,
    entry ∈ state.persisted
  runs : ∀ run, (state.runs run).Sound settings state.listing state.persisted

variable {settings : Settings} {state after : State} {plan : Plan} {seen : List HistoryMatch}
  {run : Nat} {event : Event}

/-! ## One page -/

theorem TailIn.mono {tail : Option MatchId} {listing grown : List HistoryMatch}
    (inside : TailIn tail listing) (subset : listing ⊆ grown) : TailIn tail grown := by
  intro match_id here
  obtain ⟨entry, member, same⟩ := inside match_id here
  exact ⟨entry, subset member, same⟩

theorem Phase.Sound.mono {phase : Phase} {listing grown persisted more : List HistoryMatch}
    (sound : phase.Sound settings listing persisted) (suffix : listing <:+ grown)
    (subset : persisted ⊆ more) : phase.Sound settings grown more := by
  cases phase with
  | idle => trivial
  | ready plan => exact TailIn.mono sound suffix.subset
  | fetched plan seen => exact ⟨sound.1.trans suffix, sound.2⟩
  | persisted plan seen =>
      exact ⟨sound.1.trans suffix, sound.2.1, fun entry member => subset (sound.2.2 entry member)⟩

/-- A page of a listing which has the tail is empty only when the listing is. -/
theorem seen_eq_nil (positive : 0 < settings.pageSize) (inside : TailIn plan.tail seen)
    (empty : (plan.page settings seen).entries = []) : plan.tail = none ∧ seen = [] := by
  have nothing := Paging.onward_eq_nil positive empty
  cases start : plan.startAtMatchId with
  | none =>
      rw [start] at nothing
      replace nothing : seen = [] := nothing
      subst nothing
      refine ⟨Option.eq_none_iff_forall_not_mem.mpr fun match_id here => ?_, rfl⟩
      obtain ⟨entry, member, -⟩ := inside match_id here
      exact List.not_mem_nil member
  | some match_id =>
      rw [start] at nothing
      have here : plan.tail = some match_id := by
        unfold Plan.startAtMatchId at start
        split at start
        · cases start
        · exact start
      obtain ⟨entry, member, same⟩ := inside match_id here
      have ahead := Paging.mem_onward_some.mpr ⟨member, same.le⟩
      rw [nothing] at ahead
      exact absurd ahead List.not_mem_nil

theorem tailMatchId_of_last {oldest : HistoryMatch}
    (last : (plan.page settings seen).entries.getLast? = some oldest) :
    (plan.patch (plan.page settings seen)).tailMatchId = some oldest.match_id := by
  simp [Plan.patch, last]

/-- What follows the start of a run's page is on it or older than the tail it leads to, and in the
second case something remains. -/
theorem mem_page_or_older (positive : 0 < settings.pageSize)
    (descending : Descending HistoryMatch.match_id seen) {entry : HistoryMatch}
    (ahead : entry ∈ Paging.onward HistoryMatch.match_id seen plan.startAtMatchId) :
    entry ∈ (plan.page settings seen).entries ∨
      (plan.page settings seen).remaining ≠ 0 ∧
        ∃ tail ∈ (plan.patch (plan.page settings seen)).tailMatchId, entry.match_id < tail := by
  rcases descending.mem_or_older positive ahead with inside | ⟨more, oldest, last, older⟩
  · exact .inl inside
  · exact .inr ⟨more, oldest.match_id, tailMatchId_of_last last, older⟩

theorem startAtMatchId_of_deep (deep : plan.refreshNewest = false) :
    plan.startAtMatchId = plan.tail := by
  rw [Plan.startAtMatchId, deep]
  rfl

/-- A deep page behind which something remains gets to an older tail. -/
theorem older_of_remaining (several : 2 ≤ settings.pageSize)
    (descending : Descending HistoryMatch.match_id seen) (deep : plan.refreshNewest = false)
    (more : (plan.page settings seen).remaining ≠ 0) :
    ∃ oldest, (plan.page settings seen).entries.getLast? = some oldest ∧
      ∀ tail ∈ plan.tail, oldest.match_id < tail := by
  have filled : (plan.page settings seen).entries ≠ [] := by
    intro empty
    have nothing := Paging.onward_eq_nil (by omega) empty
    apply more
    rw [Plan.page, Paging.serve, nothing]
    exact Nat.zero_sub _
  have last := List.getLast?_eq_some_getLast filled
  refine ⟨_, last, fun tail here => ?_⟩
  obtain ⟨newest, head, older⟩ := descending.oldest_lt several more last
  have ahead := List.mem_of_mem_head? head
  rw [startAtMatchId_of_deep deep, Option.mem_def.mp here] at ahead
  exact lt_of_lt_of_le older (Paging.mem_onward_some.mp ahead).2

/-- A deep page exhausts the league exactly when nothing remains behind it. -/
theorem exhausted_iff (several : 2 ≤ settings.pageSize)
    (descending : Descending HistoryMatch.match_id seen) (deep : plan.refreshNewest = false) :
    (plan.patch (plan.page settings seen)).exhausted = true ↔
      (plan.page settings seen).remaining = 0 := by
  constructor
  · intro exhausted
    by_contra more
    obtain ⟨oldest, last, older⟩ := older_of_remaining several descending deep more
    have filled : (plan.page settings seen).entries ≠ [] := by
      intro empty
      simp [empty] at last
    have elsewhere : some oldest.match_id ≠ plan.tail := by
      intro same
      exact absurd (older _ same.symm) (lt_irrefl _)
    simp [Plan.patch, deep, last, filled, more, elsewhere] at exhausted
  · intro done
    simp [Plan.patch, deep, done]

/-! ## One update -/

theorem TailIn.or {first second : Option MatchId} {listing : List HistoryMatch}
    (left : TailIn first listing) (right : TailIn second listing) :
    TailIn (first <|> second) listing := by
  cases first with
  | none => exact right
  | some match_id => exact left

/-- An update leaves a listed tail. -/
theorem tailIn_update {row : LeagueRow} {listing : List HistoryMatch} (now : Time)
    (here : TailIn row.history_tail_match_id listing) (grown : seen <:+ listing)
    (inside : TailIn plan.tail seen) :
    TailIn (row.update (plan.patch (plan.page settings seen)) now).history_tail_match_id
      listing := by
  have planned := inside.mono grown.subset
  refine TailIn.or (TailIn.or (TailIn.or ?_ planned) planned) here
  intro match_id last
  obtain ⟨oldest, at_end, same⟩ := Option.map_eq_some_iff.mp last
  have member : oldest ∈ (plan.page settings seen).entries := List.mem_of_getLast? at_end
  exact ⟨oldest, grown.subset (Paging.mem_of_mem_onward (List.mem_of_mem_take member)), same⟩

/-- The tail of the patch becomes the tail of the row. -/
theorem LeagueRow.update_tail {row : LeagueRow} {patch : CursorPatch} {now : Time} {tail : MatchId}
    (here : tail ∈ patch.tailMatchId) : tail ∈ (row.update patch now).history_tail_match_id := by
  rw [LeagueRow.update, Option.mem_def.mp here]
  rfl

theorem Covered.setRun (covered : Covered settings state) {phase : Phase}
    (sound : phase.Sound settings state.listing state.persisted) :
    Covered settings (state.setRun run phase) where
  descending := covered.descending
  grown := covered.grown
  tail := covered.tail
  covered := covered.covered
  exhausted := covered.exhausted
  runs := Processes.forall_update _ sound fun other _ => covered.runs other

theorem Covered.idle (covered : Covered settings state) :
    Covered settings (state.setRun run .idle) :=
  covered.setRun (by trivial)

/-- A page is persisted. -/
theorem Covered.persist (covered : Covered settings state)
    (sound : (Phase.fetched plan seen).Sound settings state.listing state.persisted) :
    Covered settings { state.setRun run (.persisted plan seen) with
      persisted := (plan.page settings seen).entries ++ state.persisted } where
  descending := covered.descending
  grown := covered.grown
  tail := covered.tail
  covered := fun entry member =>
    (covered.covered entry member).imp_left (List.mem_append_right _)
  exhausted := fun exhausted entry member =>
    List.mem_append_right _ (covered.exhausted exhausted entry member)
  runs := by
    have more := List.subset_append_right (plan.page settings seen).entries state.persisted
    exact Processes.forall_update _
      ⟨sound.1, sound.2, fun entry member => List.mem_append_left _ member⟩
      fun other _ => (covered.runs other).mono (List.suffix_refl _) more

/-- The update of the newest page. -/
theorem Covered.updateNewest (covered : Covered settings state) (several : 2 ≤ settings.pageSize)
    (grown : seen <:+ state.listing) (inside : TailIn plan.tail seen)
    (stored : ∀ entry ∈ (plan.page settings seen).entries, entry ∈ state.persisted)
    (newest : plan.refreshNewest = true) :
    Covered settings { state.setRun run .idle with
      row := state.row.update (plan.patch (plan.page settings seen)) state.now
      snapshot := seen } where
  descending := covered.descending
  grown := grown
  tail := tailIn_update state.now covered.tail grown inside
  covered := by
    intro entry member
    have descending := covered.descending.sublist grown.sublist
    have first : plan.startAtMatchId = none := by rw [Plan.startAtMatchId, newest]; rfl
    have ahead : entry ∈ Paging.onward HistoryMatch.match_id seen plan.startAtMatchId := by
      rw [first]
      exact member
    have positive : 0 < settings.pageSize := by omega
    rcases mem_page_or_older positive descending ahead with onPage | ⟨-, tail, here, older⟩
    · exact .inl (stored entry onPage)
    · exact .inr ⟨tail, LeagueRow.update_tail here, older⟩
  exhausted := by
    intro exhausted entry member
    have empty : (plan.page settings seen).entries = [] := by
      simpa [LeagueRow.update, Plan.patch, newest] using exhausted
    have positive : 0 < settings.pageSize := by omega
    rw [(seen_eq_nil positive inside empty).2] at member
    exact absurd member List.not_mem_nil
  runs := covered.idle.runs

/-- The update of a deep page, when the tail is the one which was read. -/
theorem Covered.updateDeep (covered : Covered settings state) (several : 2 ≤ settings.pageSize)
    (grown : seen <:+ state.listing) (inside : TailIn plan.tail seen)
    (stored : ∀ entry ∈ (plan.page settings seen).entries, entry ∈ state.persisted)
    (deep : plan.refreshNewest = false) (unmoved : state.row.history_tail_match_id = plan.tail) :
    Covered settings { state.setRun run .idle with
      row := state.row.update (plan.patch (plan.page settings seen)) state.now } := by
  have descending := covered.descending.sublist grown.sublist
  have reached : ∀ entry ∈ state.snapshot, entry ∈ state.persisted ∨
      (plan.page settings seen).remaining ≠ 0 ∧
        ∃ tail ∈ (plan.patch (plan.page settings seen)).tailMatchId, entry.match_id < tail := by
    intro entry member
    rcases covered.covered entry member with done | ⟨tail, here, older⟩
    · exact .inl done
    · rw [unmoved] at here
      obtain ⟨known, anchor, same⟩ := inside tail here
      have below : entry.match_id ≤ known.match_id := by rw [same]; exact le_of_lt older
      have seen_entry := covered.descending.mem_of_le grown anchor
        (covered.grown.subset member) below
      have ahead : entry ∈ Paging.onward HistoryMatch.match_id seen plan.startAtMatchId := by
        rw [startAtMatchId_of_deep deep, Option.mem_def.mp here]
        exact Paging.mem_onward_some.mpr ⟨seen_entry, le_of_lt older⟩
      exact (mem_page_or_older (by omega) descending ahead).imp_left (stored entry)
  exact {
    descending := covered.descending
    grown := covered.grown
    tail := tailIn_update state.now covered.tail grown inside
    covered := by
      intro entry member
      rcases reached entry member with done | ⟨-, tail, here, older⟩
      · exact .inl done
      · exact .inr ⟨tail, LeagueRow.update_tail here, older⟩
    exhausted := by
      intro exhausted entry member
      rcases reached entry member with done | ⟨more, -⟩
      · exact done
      · exact absurd ((exhausted_iff several descending deep).mp exhausted) more
    runs := covered.idle.runs }

/-! ## One step -/

theorem Covered.next (covered : Covered settings state) (several : 2 ≤ settings.pageSize)
    (unmoved : Unmoved state event) (step : next settings state event = some after) :
    Covered settings after := by
  cases event with
  | pass ms =>
      cases step
      exact { covered with }
  | publish entry =>
      obtain ⟨newer, ⟨⟩⟩ := Option.ite_none_right_eq_some.mp step
      have suffix : state.listing <:+ entry :: state.listing := List.suffix_cons _ _
      exact {
        descending := List.pairwise_cons.mpr
          ⟨fun older member => by simpa using List.all_eq_true.mp newer older member,
            covered.descending⟩
        grown := covered.grown.trans suffix
        tail := covered.tail.mono suffix.subset
        covered := covered.covered
        exhausted := covered.exhausted
        runs := fun run => (covered.runs run).mono suffix (List.Subset.refl _) }
  | reset =>
      cases step
      exact { covered with exhausted := fun exhausted => by cases exhausted }
  | start run =>
      simp only [LeagueWalk.next] at step
      split at step
      case h_1 =>
        cases step
        exact covered.setRun covered.tail
      case h_2 => cases step
  | fetch run =>
      simp only [LeagueWalk.next] at step
      split at step
      case h_1 plan ready =>
        cases step
        have inside := covered.runs run
        rw [ready] at inside
        exact covered.setRun ⟨List.suffix_refl _, inside⟩
      case h_2 => cases step
  | persist run =>
      simp only [LeagueWalk.next] at step
      split at step
      case h_1 plan seen fetched =>
        cases step
        have sound := covered.runs run
        rw [fetched] at sound
        exact covered.persist sound
      case h_2 => cases step
  | update run =>
      simp only [LeagueWalk.next] at step
      split at step
      case h_1 plan seen persisted =>
        cases step
        have sound := covered.runs run
        rw [persisted] at sound
        obtain ⟨grown, inside, stored⟩ := sound
        cases newest : plan.refreshNewest with
        | true => exact covered.updateNewest several grown inside stored newest
        | false =>
            have same := unmoved plan.tail (by simp [State.deepTail, persisted, newest])
            exact covered.updateDeep several grown inside stored newest same
      case h_2 => cases step
  | fail run =>
      cases step
      exact covered.idle

/-! ## Every run -/

theorem State.exists_of_deepTail (deep : state.deepTail run ≠ none) :
    ∃ plan seen, state.runs run = .persisted plan seen ∧ plan.refreshNewest = false := by
  unfold State.deepTail at deep
  split at deep
  case h_1 plan seen persisted =>
    refine ⟨plan, seen, persisted, ?_⟩
    by_contra newest
    rw [if_pos (Bool.eq_true_of_not_eq_false newest)] at deep
    exact deep rfl
  case h_2 => exact absurd rfl deep

/-- A deep update which leaves the league open moves the tail. -/
theorem Covered.older (covered : Covered settings state) (several : 2 ≤ settings.pageSize)
    (unmoved : Unmoved state event) (deep : DeepUpdate state event)
    (step : LeagueWalk.next settings state event = some after)
    (opened : after.row.history_exhausted = false) :
    Older after.row.history_tail_match_id state.row.history_tail_match_id := by
  cases event with
  | update run =>
      obtain ⟨plan, seen, persisted, deep⟩ := State.exists_of_deepTail deep
      have same := unmoved plan.tail (by simp [State.deepTail, persisted, deep])
      simp only [LeagueWalk.next, persisted] at step
      cases step
      have sound := covered.runs run
      rw [persisted] at sound
      have descending := covered.descending.sublist sound.1.sublist
      have more : (plan.page settings seen).remaining ≠ 0 := by
        intro done
        have exhausted := (exhausted_iff several descending deep).mpr done
        exact Bool.false_ne_true (opened.symm.trans exhausted)
      obtain ⟨oldest, last, older⟩ := older_of_remaining several descending deep more
      refine ⟨oldest.match_id, LeagueRow.update_tail (tailMatchId_of_last last), ?_⟩
      rwa [same]
  | _ => exact deep.elim

/-- A league which nobody has walked yet. -/
def initial (listing : List HistoryMatch) : State where
  listing := listing

theorem covered_initial {listing : List HistoryMatch}
    (descending : Descending HistoryMatch.match_id listing) :
    Covered settings (initial listing) where
  descending := descending
  grown := List.nil_suffix
  tail := fun _ here => by cases here
  covered := fun _ member => absurd member List.not_mem_nil
  exhausted := fun exhausted => by cases exhausted
  runs := fun _ => trivial

/-- Where every deep update finds the tail which its run has read, in every state reached an
exhausted league has all the matches of its last newest page's listing persisted, and every deep
update which leaves the league open moves the tail to an older match. -/
theorem walk_covers {listing : List HistoryMatch} {events front back : List Event}
    (several : 2 ≤ settings.pageSize) (descending : Descending HistoryMatch.match_id listing)
    (unmoved : Schedule.Throughout (next settings) Unmoved (initial listing) events)
    (split : events = front ++ event :: back)
    (before : Schedule.run (next settings) (initial listing) front = some state)
    (step : next settings state event = some after) :
    (after.row.history_exhausted = true → ∀ entry ∈ after.snapshot, entry ∈ after.persisted) ∧
      (DeepUpdate state event → after.row.history_exhausted = false →
        Older after.row.history_tail_match_id state.row.history_tail_match_id) := by
  have here : Unmoved state event :=
    Schedule.throughout_iff.mp unmoved front event back state split before
  rw [split] at unmoved
  have covered : Covered settings state :=
    unmoved.front.run_invariant (fun covered unmoved step => covered.next several unmoved step)
      (covered_initial descending) before
  exact ⟨(covered.next several here step).exhausted,
    fun deep opened => covered.older several here deep step opened⟩

/-! ## Two runs -/

def pagesOfTwo : Settings where
  historyNewestRefreshMs := 600000
  historyExhaustedRefreshMs := 86400000
  pageSize := 2

def fourMatches : List HistoryMatch := [{ match_id := 4 }, { match_id := 3 }, { match_id := 2 },
  { match_id := 1 }]

/-- A run from its start to its update. -/
def whole (run : Nat) : List Event := [.start run, .fetch run, .persist run, .update run]

/-- The newest page and one deep page. -/
theorem walk_covers_two_pages :
    ∃ state after, Schedule.run (next pagesOfTwo) (initial fourMatches)
        (whole 0 ++ [.start 0, .fetch 0, .persist 0]) = some state ∧
      next pagesOfTwo state (.update 0) = some after ∧
      Older after.row.history_tail_match_id state.row.history_tail_match_id := by
  have several : 2 ≤ pagesOfTwo.pageSize := by decide
  have descending : Descending HistoryMatch.match_id fourMatches := by decide
  have unmoved : Schedule.Throughout (next pagesOfTwo) Unmoved (initial fourMatches)
      (whole 0 ++ whole 0) := by decide +kernel
  have split : whole 0 ++ whole 0 =
      (whole 0 ++ [.start 0, .fetch 0, .persist 0]) ++ .update 0 :: [] := rfl
  refine ⟨_, _, rfl, rfl, ?_⟩
  exact (walk_covers several descending unmoved split rfl rfl).2 (by decide +kernel)
    (by decide +kernel)

/-- A deep run which has fetched its page while another run, after a reset, fetches the newest page
of a listing which has grown. -/
def overtaken : List Event :=
  whole 0 ++ [.start 0, .fetch 0, .persist 0] ++
    [5, 6, 7, 8].map (fun match_id => .publish { match_id }) ++ [.reset] ++ whole 1 ++
      [.update 0] ++ whole 0

/-- The late update moves the tail past two matches of the newest page's listing, and the league is
exhausted without them. -/
theorem overtaken_walk_misses :
    ∃ final ∈ Schedule.run (next pagesOfTwo) (initial fourMatches) overtaken,
      final.row.history_exhausted = true ∧ { match_id := 6 } ∈ final.snapshot ∧
        { match_id := 6 } ∉ final.persisted ∧ { match_id := 5 } ∈ final.snapshot ∧
          { match_id := 5 } ∉ final.persisted := by
  decide +kernel

end LeagueWalk
end DotaCollector
