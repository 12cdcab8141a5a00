import DotaCollector.Library.Rotation
import DotaCollector.Live.RealtimePoll
import Mathlib.Data.Finset.Card
import Mathlib.Data.List.Perm.Subperm

/-!
# The rotation of the realtime poll

A tick moves what it has scanned behind everything else when each scanned target either loses its
server or has its data brought by some call. A call which fails leaves its target in front, where
the next tick scans it again.
-/

namespace DotaCollector
namespace Live
namespace RealtimePoll

variable {state : State} {turns : List (MatchId × Call)} {matchId left right : MatchId}

/-! ## The calls of a tick -/

theorem pollTargets_cons (state : State) (turn : MatchId × Call)
    (turns : List (MatchId × Call)) :
    pollTargets state (turn :: turns) = pollTargets (pollTarget state turn.1 turn.2) turns := rfl

theorem mem_touched_cons {turn : MatchId × Call} : matchId ∈ touched (turn :: turns) ↔
    turn.2.touched turn.1 = some matchId ∨ matchId ∈ touched turns := by
  simp only [touched, List.mem_filterMap, List.mem_cons, exists_eq_or_imp]

theorem clock_lt_pollTarget (state : State) (target : MatchId) (call : Call) :
    state.clock < (pollTarget state target call).clock := by
  rw [clock_pollTarget]
  exact Int.lt_add_one_of_le (Int.le_add_of_nonneg_right (Int.natCast_nonneg _))

theorem lastRealtimeAt_of_untouched (untouched : matchId ∉ touched turns) :
    (pollTargets state turns).lastRealtimeAt matchId = state.lastRealtimeAt matchId := by
  induction turns generalizing state with
  | nil => rfl
  | cons turn turns ih =>
      rw [mem_touched_cons, not_or] at untouched
      rw [pollTargets_cons, ih untouched.2, lastRealtimeAt_pollTarget, if_neg untouched.1]

/-- A match whose data has come is stamped within the tick. -/
theorem exists_stamp (state : State) (member : matchId ∈ touched turns) :
    ∃ time, (pollTargets state turns).lastRealtimeAt matchId = some time ∧ state.clock < time := by
  induction turns generalizing state with
  | nil => cases member
  | cons turn turns ih =>
      have passed := clock_lt_pollTarget state turn.1 turn.2
      rw [pollTargets_cons]
      by_cases later : matchId ∈ touched turns
      · obtain ⟨time, stamped, after⟩ := ih (pollTarget state turn.1 turn.2) later
        exact ⟨time, stamped, passed.trans after⟩
      · have now := (mem_touched_cons.mp member).resolve_right later
        refine ⟨(pollTarget state turn.1 turn.2).clock, ?_, passed⟩
        rw [lastRealtimeAt_of_untouched later, lastRealtimeAt_pollTarget, if_pos now,
          clock_pollTarget]

theorem listed_pollTargets (listed : state.listed matchId = true)
    (uncleared : ∀ turn ∈ turns, turn.1 = matchId → turn.2.outcome.clears = false) :
    (pollTargets state turns).listed matchId = true := by
  induction turns generalizing state with
  | nil => exact listed
  | cons turn turns ih =>
      obtain ⟨first, rest⟩ := List.forall_mem_cons.mp uncleared
      exact ih (listed_pollTarget listed first) rest

theorem listed_of_pollTargets (untouched : matchId ∉ touched turns)
    (listed : (pollTargets state turns).listed matchId = true) :
    state.listed matchId = true ∧
      ∀ turn ∈ turns, turn.1 = matchId → turn.2.outcome.clears = false := by
  induction turns generalizing state with
  | nil => exact ⟨listed, fun _ member => by cases member⟩
  | cons turn turns ih =>
      rw [mem_touched_cons, not_or] at untouched
      obtain ⟨still, rest⟩ := ih untouched.2 listed
      obtain ⟨before, first⟩ := listed_of_pollTarget untouched.1 still
      exact ⟨before, List.forall_mem_cons.mpr ⟨first, rest⟩⟩

/-! ## Well-formed states -/

theorem WellFormed.pollTarget (wellFormed : WellFormed state) (target : MatchId) (call : Call) :
    WellFormed (pollTarget state target call) where
  nodup := by
    obtain ⟨elapsed, outcome⟩ := call
    cases outcome with
    | data named facts gameTime =>
        change (if named.getD target ∈ state.ids then state.ids
          else state.ids ++ [named.getD target]).Nodup
        split_ifs with known
        · exact wellFormed.nodup
        · rw [← List.concat_eq_append]
          exact wellFormed.nodup.concat known
    | publicMatch => exact wellFormed.nodup
    | failed => exact wellFormed.nodup
  complete matchId present := by
    obtain ⟨elapsed, outcome⟩ := call
    cases outcome with
    | data named facts gameTime =>
        change (dataTable state.table (state.clock + elapsed + 1) (named.getD target) facts gameTime
          matchId).isSome at present
        change matchId ∈ if named.getD target ∈ state.ids then state.ids
          else state.ids ++ [named.getD target]
        rcases eq_or_ne matchId (named.getD target) with rfl | ne
        · split_ifs with known
          · exact known
          · exact List.mem_append_right _ (List.mem_singleton_self _)
        · rw [dataTable_of_ne ne] at present
          have member := wellFormed.complete matchId present
          split_ifs
          · exact member
          · exact List.mem_append_left _ member
    | publicMatch =>
        refine wellFormed.complete matchId ?_
        change (clearServerSteamId state.table target matchId).isSome at present
        rw [clearServerSteamId] at present
        rcases eq_or_ne matchId target with rfl | ne
        · simpa using present
        · rwa [Table.update_of_ne ne] at present
    | failed => exact wellFormed.complete matchId present
  past matchId time stamped := by
    rw [lastRealtimeAt_pollTarget] at stamped
    rw [clock_pollTarget]
    split at stamped
    · cases stamped
      exact le_refl _
    · have passed := clock_lt_pollTarget state target call
      rw [clock_pollTarget] at passed
      exact (wellFormed.past matchId time stamped).trans passed.le

theorem WellFormed.pollTargets (wellFormed : WellFormed state) (turns : List (MatchId × Call)) :
    WellFormed (pollTargets state turns) := by
  induction turns generalizing state with
  | nil => exact wellFormed
  | cons turn turns ih => exact ih (wellFormed.pollTarget turn.1 turn.2)

/-! ## The order of the listing -/

theorem realtimeOrder_trans {first second third : Option Int × Nat}
    (left : realtimeOrder first second = true) (right : realtimeOrder second third = true) :
    realtimeOrder first third = true := by
  obtain ⟨_ | _, _⟩ := first <;> obtain ⟨_ | _, _⟩ := second <;> obtain ⟨_ | _, _⟩ := third <;>
    simp [realtimeOrder] at * <;> omega

theorem realtimeOrder_total (left right : Option Int × Nat) :
    (realtimeOrder left right || realtimeOrder right left) = true := by
  obtain ⟨_ | _, _⟩ := left <;> obtain ⟨_ | _, _⟩ := right <;> simp [realtimeOrder] <;> omega

theorem realtimeOrder_antisymm {left right : Option Int × Nat}
    (forward : realtimeOrder left right = true) (backward : realtimeOrder right left = true) :
    left.2 = right.2 := by
  obtain ⟨_ | _, _⟩ := left <;> obtain ⟨_ | _, _⟩ := right <;>
    simp [realtimeOrder] at * <;> omega

/-- A later stamp comes behind an earlier one, and behind none. -/
theorem realtimeOrder_of_later {time : Int} {left right : Nat} {earlier : Option Int}
    (later : ∀ before ∈ earlier, before < time) :
    realtimeOrder (some time, left) (earlier, right) = false := by
  cases earlier with
  | none => rfl
  | some before =>
      have less := later before rfl
      simp [realtimeOrder]
      omega

theorem listing_sorted (state : State) :
    state.listing.Pairwise fun left right => state.before left right = true := by
  have trans : ∀ first second third, state.before first second = true →
      state.before second third = true → state.before first third = true :=
    fun _ _ _ => realtimeOrder_trans
  have total : ∀ left right, (state.before left right || state.before right left) = true :=
    fun _ _ => realtimeOrder_total _ _
  exact List.pairwise_mergeSort trans total _

theorem WellFormed.mem_listing (wellFormed : WellFormed state) :
    matchId ∈ state.listing ↔ state.listed matchId = true := by
  rw [State.listing, List.mem_mergeSort, List.mem_filter, and_iff_right_iff_imp]
  intro listed
  obtain ⟨row, found, -⟩ := listed_iff.mp listed
  exact wellFormed.complete matchId (by rw [found]; rfl)

theorem WellFormed.nodup_listing (wellFormed : WellFormed state) : state.listing.Nodup :=
  (List.mergeSort_perm _ _).nodup_iff.mpr (wellFormed.nodup.filter _)

/-! ## One tick -/

variable {calls : List Call}

/-- A tick scans the front of the listing. -/
theorem scanned_eq (state : State) (calls : List Call) :
    scanned state calls = state.listing.take (scanned state calls).length := by
  have front : ∀ (targets : List MatchId) (calls : List Call),
      (targets.zip calls).map Prod.fst = targets.take calls.length := by
    intro targets
    induction targets with
    | nil => simp
    | cons target targets ih =>
        rintro (_ | ⟨call, calls⟩)
        · rfl
        · simp [ih]
  have taken : scanned state calls = state.listing.take (min calls.length 200) := by
    rw [scanned, scans, front, listLiveRealtimeTargets, List.take_take]
  rw [taken, List.length_take, ← List.take_eq_take_min]

theorem WellFormed.nodup_scanned (wellFormed : WellFormed state) (calls : List Call) :
    (scanned state calls).Nodup := by
  rw [scanned_eq]
  exact wellFormed.nodup_listing.sublist (List.take_sublist _ _)

/-- When each call clears its target or its target's data has come, data has come of no other
match. -/
theorem not_clears_of_touched (nodup : (turns.map Prod.fst).Nodup)
    (answered : ∀ turn ∈ turns, turn.2.outcome.clears = true ∨ turn.1 ∈ touched turns)
    (member : matchId ∈ touched turns) :
    ∃ turn ∈ turns, turn.1 = matchId ∧ turn.2.outcome.clears = false := by
  let kept := turns.filter fun turn => !turn.2.outcome.clears
  have within : kept.map Prod.fst ⊆ touched turns := by
    intro target among
    obtain ⟨turn, uncleared, rfl⟩ := List.mem_map.mp among
    obtain ⟨scanned, uncleared⟩ := List.mem_filter.mp uncleared
    exact (answered turn scanned).resolve_left (by simpa using uncleared)
  have few : (touched turns).length ≤ (kept.map Prod.fst).length := by
    have same : touched turns = touched kept := by
      rw [touched, touched, List.filterMap_filter]
      refine List.filterMap_congr fun turn _ => ?_
      obtain ⟨target, elapsed, _ | _ | _⟩ := turn <;> rfl
    rw [same, List.length_map]
    exact List.length_filterMap_le _ _
  have once : (kept.map Prod.fst).Nodup := nodup.sublist (List.filter_sublist.map _)
  have all : (kept.map Prod.fst).Perm (touched turns) :=
    (List.Nodup.subperm once within).perm_of_length_le few
  obtain ⟨turn, uncleared, rfl⟩ := List.mem_map.mp (all.mem_iff.mpr member)
  obtain ⟨scanned, uncleared⟩ := List.mem_filter.mp uncleared
  exact ⟨turn, scanned, rfl, by simpa using uncleared⟩

/-- What an answered tick has not scanned, it has not touched. -/
theorem Answered.untouched (wellFormed : WellFormed state) (answered : Answered state calls)
    (unscanned : matchId ∉ scanned state calls) : matchId ∉ touched (scans state calls) := by
  intro member
  obtain ⟨turn, among, rfl, -⟩ :=
    not_clears_of_touched (wellFormed.nodup_scanned calls) answered member
  exact unscanned (List.mem_map_of_mem among)

/-! ## Fair ticks -/

/-- What no call has touched keeps its place with regard to each other. -/
theorem before_of_untouched (leftUntouched : left ∉ touched (scans state calls))
    (rightUntouched : right ∉ touched (scans state calls)) :
    (runPollRealtimeStats state calls).before left right = state.before left right := by
  rw [runPollRealtimeStats, State.before, lastRealtimeAt_of_untouched leftUntouched,
    lastRealtimeAt_of_untouched rightUntouched]
  rfl

/-- What a call has touched comes behind all which none has touched. -/
theorem before_of_touched (wellFormed : WellFormed state)
    (leftTouched : left ∈ touched (scans state calls))
    (rightUntouched : right ∉ touched (scans state calls)) :
    (runPollRealtimeStats state calls).before left right = false := by
  obtain ⟨time, stamped, later⟩ := exists_stamp state leftTouched
  rw [runPollRealtimeStats, State.before, stamped, lastRealtimeAt_of_untouched rightUntouched]
  exact realtimeOrder_of_later fun old before =>
    (wellFormed.past right old before).trans_lt later

/-- A scanned target which is still listed has been touched, if the tick was answered. -/
theorem Answered.touched_of_listed (wellFormed : WellFormed state)
    (answered : Answered state calls) (member : matchId ∈ scanned state calls)
    (listed : (runPollRealtimeStats state calls).listed matchId = true) :
    matchId ∈ touched (scans state calls) := by
  obtain ⟨turn, among, rfl⟩ := List.mem_map.mp member
  refine (answered turn among).resolve_left fun cleared => ?_
  by_cases later : turn.1 ∈ touched (scans state calls)
  · obtain ⟨other, within, same, uncleared⟩ :=
      not_clears_of_touched (wellFormed.nodup_scanned calls) answered later
    have once := List.inj_on_of_nodup_map (wellFormed.nodup_scanned calls) within among same
    rw [once, cleared] at uncleared
    cases uncleared
  · have kept := (listed_of_pollTargets later listed).2 turn among rfl
    rw [cleared] at kept
    cases kept

theorem Answered.fair (wellFormed : WellFormed state) (answered : Answered state calls) :
    Fair state calls := by
  intro target member listed other _ unscanned
  have after := wellFormed.pollTargets (scans state calls)
  exact before_of_touched wellFormed
    (answered.touched_of_listed wellFormed member (after.mem_listing.mp listed))
    (answered.untouched wellFormed unscanned)

theorem mem_drop_scanned (wellFormed : WellFormed state) :
    matchId ∈ state.listing.drop (scanned state calls).length ↔
      matchId ∈ state.listing ∧ matchId ∉ scanned state calls := by
  have nodup := wellFormed.nodup_listing
  have split := List.take_append_drop (scanned state calls).length state.listing
  rw [← scanned_eq] at split
  have disjoint := List.nodup_append.mp (split.symm ▸ nodup)
  constructor
  · intro rest
    exact ⟨List.mem_of_mem_drop rest, fun member => disjoint.2.2 _ member _ rest rfl⟩
  · rintro ⟨member, unscanned⟩
    rw [← split] at member
    exact (List.mem_append.mp member).resolve_left unscanned

/-- A target which is scanned stands before all which are not. -/
theorem before_of_scanned (wellFormed : WellFormed state) (member : left ∈ scanned state calls)
    (listed : right ∈ state.listing) (unscanned : right ∉ scanned state calls) :
    state.before left right = true := by
  have sorted := listing_sorted state
  rw [← List.take_append_drop (scanned state calls).length state.listing, ← scanned_eq] at sorted
  exact (List.pairwise_append.mp sorted).2.2 left member right
    ((mem_drop_scanned wellFormed).mpr ⟨listed, unscanned⟩)

/-- A tick which leaves a target of the listing unscanned is fair exactly when it is answered. -/
theorem fair_iff_answered (wellFormed : WellFormed state) {other : MatchId}
    (waits : other ∈ state.listing) (unscanned : other ∉ scanned state calls) :
    Fair state calls ↔ Answered state calls := by
  refine ⟨fun fair turn among => ?_, Answered.fair wellFormed⟩
  by_contra unanswered
  obtain ⟨uncleared, untouched⟩ := not_or.mp unanswered
  rw [Bool.not_eq_true] at uncleared
  have member : turn.1 ∈ scanned state calls := List.mem_map_of_mem among
  have listed : turn.1 ∈ state.listing := List.mem_of_mem_take (scanned_eq state calls ▸ member)
  have after := wellFormed.pollTargets (scans state calls)
  have still : turn.1 ∈ (runPollRealtimeStats state calls).listing := by
    refine after.mem_listing.mpr (listed_pollTargets (wellFormed.mem_listing.mp listed) ?_)
    intro same within equal
    rwa [List.inj_on_of_nodup_map (wellFormed.nodup_scanned calls) within among equal]
  have remains : other ∈ (runPollRealtimeStats state calls).listing := by
    refine after.mem_listing.mpr (listed_pollTargets (wellFormed.mem_listing.mp waits) ?_)
    rintro same within rfl
    exact (unscanned (List.mem_map_of_mem within)).elim
  have behind := fair turn.1 member still other remains unscanned
  by_cases stamped : other ∈ touched (scans state calls)
  · have ahead := before_of_touched wellFormed stamped untouched
    have total := realtimeOrder_total
      ((runPollRealtimeStats state calls).lastRealtimeAt turn.1, turn.1)
      ((runPollRealtimeStats state calls).lastRealtimeAt other, other)
    rw [State.before] at ahead behind
    rw [ahead, behind] at total
    cases total
  · rw [before_of_untouched untouched stamped, before_of_scanned wellFormed member waits unscanned]
      at behind
    cases behind

/-! ## Rotation -/

theorem eq_of_sorted {state : State} {front back : List MatchId} (same : front.Perm back)
    (frontSorted : front.Pairwise fun left right => state.before left right = true)
    (backSorted : back.Pairwise fun left right => state.before left right = true) :
    front = back :=
  List.Perm.eq_of_pairwise (fun _ _ _ _ => realtimeOrder_antisymm) frontSorted backSorted same

/-- What an answered tick has not scanned comes first in the next listing, in its order. -/
theorem Answered.rotates (wellFormed : WellFormed state) (answered : Answered state calls) :
    state.listing.drop (scanned state calls).length <+:
      (runPollRealtimeStats state calls).listing := by
  let after := runPollRealtimeStats state calls
  have formed : WellFormed after := wellFormed.pollTargets (scans state calls)
  let waiting := after.listing.filter (· ∉ scanned state calls)
  let served := after.listing.filter fun target => !decide (target ∉ scanned state calls)
  have rest : state.listing.drop (scanned state calls).length = waiting := by
    refine eq_of_sorted ?_ ?_ ((listing_sorted after).filter _)
    · refine (List.perm_ext_iff_of_nodup
        (wellFormed.nodup_listing.sublist (List.drop_sublist _ _))
        (formed.nodup_listing.filter _)).mpr fun matchId => ?_
      rw [mem_drop_scanned wellFormed, List.mem_filter, decide_eq_true_eq]
      refine and_congr_left fun unscanned => ?_
      rw [wellFormed.mem_listing, formed.mem_listing]
      constructor
      · intro listed
        refine listed_pollTargets listed ?_
        rintro turn within rfl
        exact (unscanned (List.mem_map_of_mem within)).elim
      · exact fun listed =>
          (listed_of_pollTargets (answered.untouched wellFormed unscanned) listed).1
    · refine ((listing_sorted state).sublist (List.drop_sublist _ _)).imp_of_mem ?_
      intro left right leftWaits rightWaits before
      rwa [before_of_untouched
        (answered.untouched wellFormed ((mem_drop_scanned wellFormed).mp leftWaits).2)
        (answered.untouched wellFormed ((mem_drop_scanned wellFormed).mp rightWaits).2)]
  have split : waiting ++ served = after.listing := by
    refine eq_of_sorted (List.filter_append_perm _ _) ?_ (listing_sorted after)
    refine List.pairwise_append.mpr ⟨(listing_sorted after).filter _,
      (listing_sorted after).filter _, ?_⟩
    intro other waits target member
    obtain ⟨listed, unscanned⟩ := List.mem_filter.mp waits
    obtain ⟨still, scanned⟩ := List.mem_filter.mp member
    have behind := answered.fair wellFormed target (by simpa using scanned) still other listed
      (by simpa using unscanned)
    have total := realtimeOrder_total (after.lastRealtimeAt other, other)
      (after.lastRealtimeAt target, target)
    rw [State.before] at behind ⊢
    rwa [behind, Bool.or_false] at total
  exact ⟨served, rest ▸ split⟩

/-! ## Runs -/

variable {start : State} {ticks : List (List Call)}

/-- The turns of the rotation which the ticks make. -/
def turnsOf : State → List (List Call) → List (Rotation.Turn MatchId)
  | _, [] => []
  | state, calls :: ticks =>
      ⟨state.listing, (scanned state calls).length⟩ ::
        turnsOf (runPollRealtimeStats state calls) ticks

/-- Some tick of the run scans the target. -/
def ScannedIn (start : State) (ticks : List (List Call)) (target : MatchId) : Prop :=
  ∃ front calls back state, ticks = front ++ calls :: back ∧
    Schedule.run next start front = some state ∧ target ∈ scanned state calls

theorem WellFormed.run {final : State} (wellFormed : WellFormed start)
    (execution : Schedule.run next start ticks = some final) : WellFormed final := by
  refine Schedule.run_invariant ?_ wellFormed execution
  rintro state calls _ formed ⟨⟩
  exact formed.pollTargets (scans state calls)

theorem isChain_turnsOf (wellFormed : WellFormed start)
    (answered : Schedule.Throughout next Answered start ticks) :
    (turnsOf start ticks).IsChain Rotation.Rotates := by
  induction ticks generalizing start with
  | nil => exact List.isChain_nil
  | cons calls ticks ih =>
      rw [Schedule.throughout_cons] at answered
      have rest := ih (wellFormed.pollTargets (scans start calls)) (answered.2 _ rfl)
      have rotates := answered.1.rotates wellFormed
      rw [turnsOf]
      cases ticks with
      | nil => exact List.isChain_singleton _
      | cons later ticks => exact List.isChain_cons_cons.mpr ⟨rotates, rest⟩

theorem scannedIn_of_serves {turn : Rotation.Turn MatchId} (member : turn ∈ turnsOf start ticks)
    (served : matchId ∈ turn.serves) : ScannedIn start ticks matchId := by
  induction ticks generalizing start with
  | nil => cases member
  | cons calls ticks ih =>
      rw [turnsOf, List.mem_cons] at member
      rcases member with rfl | member
      · refine ⟨[], calls, ticks, start, rfl, rfl, ?_⟩
        rw [scanned_eq]
        exact served
      · obtain ⟨front, now, back, state, rfl, reached, scanned⟩ := ih member
        exact ⟨calls :: front, now, back, state, rfl, reached, scanned⟩

theorem le_sum_served {b : Nat}
    (busy : Schedule.Throughout next (fun state calls => b ≤ (scanned state calls).length)
      start ticks) :
    b * ticks.length ≤ ((turnsOf start ticks).map Rotation.Turn.served).sum := by
  induction ticks generalizing start with
  | nil => exact Nat.zero_le _
  | cons calls ticks ih =>
      rw [Schedule.throughout_cons] at busy
      have rest := ih (busy.2 _ rfl)
      have now := busy.1
      simp only [turnsOf, List.map_cons, List.sum_cons, List.length_cons, Nat.mul_succ]
      omega

/-- Answered ticks reach every target as soon as together they scan as many as are listed. -/
theorem scannedIn_of_answered (wellFormed : WellFormed start)
    (answered : Schedule.Throughout next Answered start ticks) {b : Nat}
    (busy : Schedule.Throughout next (fun state calls => b ≤ (scanned state calls).length)
      start ticks)
    (enough : start.listing.length ≤ b * ticks.length) (listed : matchId ∈ start.listing) :
    ScannedIn start ticks matchId := by
  obtain ⟨place, inside, there⟩ := List.getElem_of_mem listed
  cases ticks with
  | nil =>
      rw [List.length_nil, Nat.mul_zero] at enough
      omega
  | cons calls ticks =>
      obtain ⟨turn, member, served⟩ := Rotation.exists_serves
        (isChain_turnsOf wellFormed answered) rfl
        (List.getElem?_eq_some_iff.mpr ⟨inside, there⟩)
        (inside.trans_le (enough.trans (le_sum_served busy)))
      exact scannedIn_of_serves member served

/-- A tick which leaves a listed target unscanned is fair exactly when each target it scanned is
no league match or has had its data brought by some call. When all ticks of a run are answered
so, they are all fair; and while the same `n` targets are listed and each tick scans `b` of
them, any ticks in a row which together make up `n` scans reach every target. -/
theorem realtime_round_robin (wellFormed : WellFormed start) (ticks : List (List Call)) :
    Schedule.Throughout next (fun state calls =>
      (∃ other ∈ state.listing, other ∉ scanned state calls) →
        (Fair state calls ↔ Answered state calls)) start ticks ∧
    (Schedule.Throughout next Answered start ticks →
      Schedule.Throughout next Fair start ticks ∧
      ∀ (targets : Finset MatchId) (b : Nat),
        Schedule.Throughout next
          (fun state _ => ∀ target, target ∈ state.listing ↔ target ∈ targets) start ticks →
        Schedule.Throughout next (fun state calls => b ≤ (scanned state calls).length)
          start ticks →
        ∀ front window back first, ticks = front ++ (window ++ back) →
          Schedule.run next start front = some first → targets.card ≤ b * window.length →
            ∀ target ∈ targets, ScannedIn first window target) := by
  refine ⟨?_, fun answered => ⟨?_, ?_⟩⟩
  · rw [Schedule.throughout_iff]
    rintro front calls back state - reached ⟨other, waits, unscanned⟩
    exact fair_iff_answered (wellFormed.run reached) waits unscanned
  · rw [Schedule.throughout_iff] at answered ⊢
    intro front calls back state split reached
    exact (answered front calls back state split reached).fair (wellFormed.run reached)
  · rintro targets b same busy front window back first rfl reached enough target member
    have formed := wellFormed.run reached
    cases window with
    | nil =>
        rw [List.length_nil, Nat.mul_zero, Nat.le_zero, Finset.card_eq_zero] at enough
        rw [enough] at member
        cases member
    | cons calls window =>
        have listed := ((same.back reached).front).1
        have card : first.listing.length = targets.card := by
          rw [← List.toFinset_card_of_nodup formed.nodup_listing]
          congr 1
          ext target
          rw [List.mem_toFinset, listed]
        exact scannedIn_of_answered formed (answered.back reached).front
          (busy.back reached).front (card ▸ enough) ((listed target).mpr member)

/-- Two live matches of which no data has come. -/
def twoLive (clock : Time) : State where
  ids := [1, 2]
  table matchId := if matchId = 1 ∨ matchId = 2 then
    some { status := .live
           facts := fun col => if col = .serverSteamId then some (.int matchId) else none }
    else none
  clock

theorem listing_twoLive (clock : Time) : (twoLive clock).listing = [1, 2] := by
  have listed : (twoLive clock).ids.filter (twoLive clock).listed = [1, 2] := rfl
  rw [State.listing, listed]
  refine List.mergeSort_of_pairwise (List.pairwise_pair.mpr rfl)

theorem wellFormed_twoLive (clock : Time) : WellFormed (twoLive clock) where
  nodup := by simp [twoLive]
  complete matchId present := by
    by_cases known : matchId = 1 ∨ matchId = 2
    · simpa [twoLive] using known
    · simp [twoLive, known] at present
  past matchId time stamped := by
    by_cases known : matchId = 1 ∨ matchId = 2 <;>
      simp [State.lastRealtimeAt, twoLive, known] at stamped

/-- A call which brings the data of its target. -/
def dataCall : Call := { outcome := .data none (fun _ => none) 0 }

/-- A tick with time for one call scans the match in front. -/
theorem turn_of_listing {state : State} {first : MatchId} {rest : List MatchId}
    (listing : state.listing = first :: rest) :
    next state [dataCall] = some (pollTarget state first dataCall) ∧
      scanned state [dataCall] = [first] ∧ Answered state [dataCall] := by
  have scans : scans state [dataCall] = [(first, dataCall)] := by
    rw [RealtimePoll.scans, listLiveRealtimeTargets, listing]
    simp
  refine ⟨?_, by rw [scanned, scans]; rfl, fun turn among => .inr ?_⟩
  · rw [next, runPollRealtimeStats, scans]
    rfl
  · rw [scans] at among ⊢
    rw [List.mem_singleton.mp among]
    simp [touched, Call.touched, dataCall]

/-- Of two listed matches the one which comes before the other is in front. -/
theorem listing_of_two {state : State} {first second : MatchId} (front : Bool)
    (two : state.ids.filter state.listed = [first, second])
    (before : state.before first second = front) :
    state.listing = if front then [first, second] else [second, first] := by
  rw [State.listing, two]
  cases front <;> simp [List.mergeSort, before]

/-- Three ticks with time for one call each: the second and the third scan both matches, though
the first has scanned match 1 already. -/
theorem realtime_round_robin_twoLive :
    Schedule.Throughout next Fair (twoLive 0) [[dataCall], [dataCall], [dataCall]] ∧
      ∀ target ∈ ({1, 2} : Finset MatchId),
        ScannedIn (pollTarget (twoLive 0) 1 dataCall) [[dataCall], [dataCall]] target := by
  let once := pollTarget (twoLive 0) 1 dataCall
  let twice := pollTarget once 2 dataCall
  have third : twice.listing = [1, 2] := listing_of_two true rfl rfl
  have second : once.listing = [2, 1] := listing_of_two false rfl rfl
  obtain ⟨toOnce, scans, answered⟩ := turn_of_listing (listing_twoLive 0)
  obtain ⟨toTwice, scansSecond, answeredSecond⟩ := turn_of_listing second
  obtain ⟨toThrice, scansThird, answeredThird⟩ := turn_of_listing third
  have through {guard : State → List Call → Prop} (first : guard (twoLive 0) [dataCall])
      (second : guard once [dataCall]) (third : guard twice [dataCall]) :
      Schedule.Throughout next guard (twoLive 0) [[dataCall], [dataCall], [dataCall]] := by
    refine ⟨first, fun _ step => ?_⟩
    obtain rfl := Option.some.inj (toOnce.symm.trans step)
    refine ⟨second, fun _ step => ?_⟩
    obtain rfl := Option.some.inj (toTwice.symm.trans step)
    exact ⟨third, fun _ _ => trivial⟩
  obtain ⟨fair, window⟩ := (realtime_round_robin (wellFormed_twoLive 0)
    [[dataCall], [dataCall], [dataCall]]).2 (through answered answeredSecond answeredThird)
  refine ⟨fair, window {1, 2} 1 ?_ ?_ [[dataCall]] [[dataCall], [dataCall]] [] _ rfl ?_ (by decide)⟩
  · refine through (fun target => ?_) (fun target => ?_) fun target => ?_
    · simp [listing_twoLive]
    · simp [second, or_comm]
    · simp [third]
  · refine through ?_ ?_ ?_
    · rw [scans]
      rfl
    · rw [scansSecond]
      rfl
    · rw [scansThird]
      rfl
  · exact Schedule.run_cons_eq_some.mpr ⟨_, toOnce, rfl⟩

theorem scanned_twoLive (clock : Time) (call : Call) : scanned (twoLive clock) [call] = [1] := by
  rw [scanned, scans, listLiveRealtimeTargets, listing_twoLive]
  rfl

theorem exists_clock_of_failures {n : Nat} {reached : State} {clock : Time}
    (execution : Schedule.run next (twoLive clock)
      (List.replicate n [{ outcome := .failed }]) = some reached) :
    ∃ later, reached = twoLive later := by
  induction n generalizing clock with
  | zero =>
      cases execution
      exact ⟨clock, rfl⟩
  | succ n ih =>
      obtain ⟨after, step, rest⟩ := Schedule.run_cons_eq_some.mp execution
      cases step
      rw [runPollRealtimeStats, scans, listLiveRealtimeTargets, listing_twoLive] at rest
      exact ih rest

/-- A target whose call fails stays in front, and the other one is never scanned. -/
theorem realtime_failure_holds_the_front :
    let call : Call := { outcome := .failed }
    WellFormed (twoLive 0) ∧ ¬ Fair (twoLive 0) [call] ∧
      ∀ n, Schedule.Throughout next
          (fun state calls => state.listing = [1, 2] ∧ (scanned state calls).length = 1)
          (twoLive 0) (List.replicate n [call]) ∧
        ¬ ScannedIn (twoLive 0) (List.replicate n [call]) 2 := by
  intro call
  have visited : ∀ {n front calls back state}, List.replicate n [call] = front ++ calls :: back →
      Schedule.run next (twoLive 0) front = some state →
        calls = [call] ∧ ∃ clock, state = twoLive clock := by
    intro n front calls back state split reached
    obtain ⟨-, same, rest⟩ := List.append_eq_replicate_iff.mp split.symm
    rw [same] at reached
    exact ⟨(List.eq_replicate_iff.mp rest).2 calls List.mem_cons_self,
      exists_clock_of_failures reached⟩
  refine ⟨wellFormed_twoLive 0, fun fair => ?_, fun n => ⟨?_, ?_⟩⟩
  · have after : (runPollRealtimeStats (twoLive 0) [call]) = twoLive 1 := by
      rw [runPollRealtimeStats, scans, listLiveRealtimeTargets, listing_twoLive]
      rfl
    have behind := fair 1 (by simp [scanned_twoLive]) (by simp [after, listing_twoLive]) 2
      (by simp [after, listing_twoLive]) (by simp [scanned_twoLive])
    rw [after] at behind
    cases behind
  · refine Schedule.throughout_iff.mpr fun front calls back state split reached => ?_
    obtain ⟨rfl, clock, rfl⟩ := visited split reached
    rw [listing_twoLive, scanned_twoLive]
    exact ⟨rfl, rfl⟩
  · rintro ⟨front, calls, back, state, split, reached, member⟩
    obtain ⟨rfl, clock, rfl⟩ := visited split reached
    rw [scanned_twoLive] at member
    cases List.mem_singleton.mp member

end RealtimePoll
end Live
end DotaCollector
