import Mathlib.Data.List.Nodup
import Mathlib.Data.List.Perm.Basic
import Mathlib.Logic.Basic
import DotaCollector.Matches.Row

/-!
# Targets of the sequence API

The sequence API returns a window of global matches from a number on, not the matches asked for.
Behind each response a target is saved, given up as unavailable, or kept for the next request. The
first target never stays, so that a list of targets is used up after as many responses.
-/

namespace DotaCollector
namespace SeqWalk

structure SeqRef where
  matchId : MatchId
  matchSeqNum : Int
  deriving DecidableEq, Repr

/-- The matches which the API has returned. -/
structure SeqWindow where
  returned : List SeqRef

/-- What is to be done about a target which is resolved. -/
inductive SeqWalkAction where
  | save (matchId : MatchId)
  | unavailable (matchId : MatchId) (reason : String)
  deriving DecidableEq, Repr

def SeqWalkAction.matchId : SeqWalkAction → MatchId
  | save matchId => matchId
  | unavailable matchId _ => matchId

/-- `got.has(matchId)` -/
def SeqWindow.has (window : SeqWindow) (matchId : MatchId) : Bool :=
  window.returned.any (·.matchId = matchId)

theorem SeqWindow.has_iff {window : SeqWindow} {matchId : MatchId} :
    window.has matchId = true ↔ matchId ∈ window.returned.map SeqRef.matchId := by
  simp [SeqWindow.has]

/-- One turn of the loop over the targets: the action pushed, or nothing for a target that is
pushed to `next`. -/
def verdict (window : SeqWindow) (headSeq maxSeq : Int) (target : SeqRef) : Option SeqWalkAction :=
  if window.has target.matchId then some (.save target.matchId)
  else if target.matchSeqNum ≤ maxSeq then
    some (.unavailable target.matchId
      s!"seq {target.matchSeqNum} inside window ({headSeq}..{maxSeq}) but not returned")
  else none

/-- The loop over the targets. -/
def sortTargets (window : SeqWindow) (headSeq maxSeq : Int) :
    List SeqRef → List SeqWalkAction × List SeqRef
  | [] => ([], [])
  | target :: targets =>
      let (actions, next) := sortTargets window headSeq maxSeq targets
      match verdict window headSeq maxSeq target with
      | some action => (action :: actions, next)
      | none => (actions, target :: next)

def applySeqWindow (remaining : List SeqRef) (window : SeqWindow) (batchSize : Nat) :
    List SeqWalkAction × List SeqRef :=
  match remaining with
  | [] => ([], [])
  | head :: tail =>
      match window.returned with
      | [] =>
          ([.unavailable head.matchId s!"empty seq window at {head.matchSeqNum}"], tail)
      | first :: others =>
          let maxSeq := (others.map SeqRef.matchSeqNum).foldl max first.matchSeqNum
          let (actions, next) := sortTargets window head.matchSeqNum maxSeq remaining
          match next with
          | [] => (actions, next)
          | stuck :: later =>
              if stuck.matchSeqNum = head.matchSeqNum ∧ ¬ window.has head.matchId then
                -- The window has not moved past the head.
                (actions ++ [.unavailable head.matchId
                  s!"seq cursor did not advance from {head.matchSeqNum} (batch {batchSize})"], later)
              else (actions, next)

/-- The targets are used up by one window after another. -/
def applySeqWindows (remaining : List SeqRef) :
    List (SeqWindow × Nat) → List SeqWalkAction × List SeqRef
  | [] => ([], remaining)
  | (window, batchSize) :: windows =>
      let (actions, next) := applySeqWindow remaining window batchSize
      let (later, last) := applySeqWindows next windows
      (actions ++ later, last)

/-! ## The loop over the targets -/

variable {window : SeqWindow} {headSeq maxSeq : Int} {target : SeqRef} {targets : List SeqRef}

theorem verdict_matchId {action : SeqWalkAction}
    (resolved : verdict window headSeq maxSeq target = some action) :
    action.matchId = target.matchId := by
  unfold verdict at resolved
  split_ifs at resolved
  all_goals
    cases resolved
    rfl

theorem verdict_eq_none_iff :
    verdict window headSeq maxSeq target = none ↔
      ¬ window.has target.matchId ∧ maxSeq < target.matchSeqNum := by
  unfold verdict
  split_ifs with returned inside
  · simp [returned]
  · simp [inside]
  · simp [returned, not_le.mp inside]

theorem verdict_eq_save_iff {matchId : MatchId} :
    verdict window headSeq maxSeq target = some (.save matchId) ↔
      window.has target.matchId ∧ target.matchId = matchId := by
  unfold verdict
  split_ifs with returned inside
  · simp [returned]
  · simp [returned]
  · simp [returned]

theorem sortTargets_eq (targets : List SeqRef) :
    sortTargets window headSeq maxSeq targets =
      (targets.filterMap (verdict window headSeq maxSeq),
        targets.filter fun target => (verdict window headSeq maxSeq target).isNone) := by
  induction targets with
  | nil => rfl
  | cons target targets ih =>
      unfold sortTargets
      rw [ih]
      cases resolved : verdict window headSeq maxSeq target with
      | none => simp [resolved]
      | some action => simp [resolved]

/-- What is resolved and what is left are the targets. -/
theorem sortTargets_perm (targets : List SeqRef) :
    let sorted := sortTargets window headSeq maxSeq targets
    (sorted.1.map SeqWalkAction.matchId ++ sorted.2.map SeqRef.matchId).Perm
      (targets.map SeqRef.matchId) := by
  induction targets with
  | nil => exact .nil
  | cons target targets ih =>
      unfold sortTargets
      dsimp only at ih ⊢
      cases resolved : verdict window headSeq maxSeq target with
      | none => exact List.perm_middle.trans (ih.cons _)
      | some action =>
          rw [List.map_cons, List.map_cons, List.cons_append, verdict_matchId resolved]
          exact ih.cons _

theorem sortTargets_sublist (targets : List SeqRef) :
    (sortTargets window headSeq maxSeq targets).2.Sublist targets := by
  rw [sortTargets_eq]
  exact List.filter_sublist

theorem lt_of_mem_sortTargets (left : target ∈ (sortTargets window headSeq maxSeq targets).2) :
    maxSeq < target.matchSeqNum := by
  rw [sortTargets_eq] at left
  have unresolved := (List.mem_filter.mp left).2
  exact (verdict_eq_none_iff.mp (Option.isNone_iff_eq_none.mp unresolved)).2

theorem save_mem_sortTargets_iff {matchId : MatchId} :
    SeqWalkAction.save matchId ∈ (sortTargets window headSeq maxSeq targets).1 ↔
      window.has matchId ∧ matchId ∈ targets.map SeqRef.matchId := by
  rw [sortTargets_eq, List.mem_filterMap, List.mem_map]
  constructor
  · rintro ⟨target, member, resolved⟩
    obtain ⟨returned, rfl⟩ := verdict_eq_save_iff.mp resolved
    exact ⟨returned, target, member, rfl⟩
  · rintro ⟨returned, target, member, rfl⟩
    exact ⟨target, member, verdict_eq_save_iff.mpr ⟨returned, rfl⟩⟩

/-! ## One window -/

/-- The head is resolved by its verdict, or given up because the window is empty or has not moved
past it; the others have their verdicts, unless the window is empty. -/
theorem applySeqWindow_cons (window : SeqWindow) (head : SeqRef) (tail : List SeqRef)
    (batchSize : Nat) :
    ∃ maxSeq reason,
      let sorted := sortTargets window head.matchSeqNum maxSeq tail
      (window.returned = [] ∧
        applySeqWindow (head :: tail) window batchSize =
          ([.unavailable head.matchId reason], tail)) ∨
      (∃ action, verdict window head.matchSeqNum maxSeq head = some action ∧
        applySeqWindow (head :: tail) window batchSize = (action :: sorted.1, sorted.2)) ∨
      (verdict window head.matchSeqNum maxSeq head = none ∧
        applySeqWindow (head :: tail) window batchSize =
          (sorted.1 ++ [.unavailable head.matchId reason], sorted.2)) := by
  cases returned : window.returned with
  | nil =>
      refine ⟨0, s!"empty seq window at {head.matchSeqNum}", .inl ⟨rfl, ?_⟩⟩
      simp only [applySeqWindow, returned]
  | cons first others =>
      refine ⟨(others.map SeqRef.matchSeqNum).foldl max first.matchSeqNum,
        s!"seq cursor did not advance from {head.matchSeqNum} (batch {batchSize})", .inr ?_⟩
      simp only [applySeqWindow, returned]
      generalize (others.map SeqRef.matchSeqNum).foldl max first.matchSeqNum = maxSeq
      cases resolved : verdict window head.matchSeqNum maxSeq head with
      | some action =>
          refine .inl ⟨action, rfl, ?_⟩
          simp only [sortTargets, resolved]
          split
          · rename_i none_left
            rw [none_left]
          · rename_i stuck later left
            -- Whoever is left is beyond the window, so it is not at the number of the head.
            have member : stuck ∈ (sortTargets window head.matchSeqNum maxSeq tail).2 := by
              rw [left]
              exact List.mem_cons_self
            have beyond := lt_of_mem_sortTargets member
            rw [if_neg, left]
            rintro ⟨same, absent⟩
            rw [verdict_eq_none_iff.mpr ⟨absent, same ▸ beyond⟩] at resolved
            cases resolved
      | none =>
          refine .inr ⟨rfl, ?_⟩
          obtain ⟨absent, -⟩ := verdict_eq_none_iff.mp resolved
          simp only [sortTargets, resolved]
          rw [if_pos ⟨trivial, absent⟩]

/-- Nobody is lost and nobody is resolved twice. -/
theorem applySeqWindow_perm (remaining : List SeqRef) (window : SeqWindow) (batchSize : Nat) :
    let outcome := applySeqWindow remaining window batchSize
    (outcome.1.map SeqWalkAction.matchId ++ outcome.2.map SeqRef.matchId).Perm
      (remaining.map SeqRef.matchId) := by
  cases remaining with
  | nil => exact .nil
  | cons head tail =>
      obtain ⟨maxSeq, reason, ⟨-, outcome⟩ | ⟨action, resolved, outcome⟩ | ⟨-, outcome⟩⟩ :=
        applySeqWindow_cons window head tail batchSize
      all_goals rw [outcome]
      · exact .refl _
      · dsimp only
        rw [List.map_cons, List.map_cons, List.cons_append, verdict_matchId resolved]
        exact (sortTargets_perm tail).cons _
      · dsimp only
        rw [List.map_append, List.map_singleton, List.append_assoc, List.map_cons]
        exact List.perm_middle.trans ((sortTargets_perm tail).cons _)

theorem applySeqWindow_sublist (remaining : List SeqRef) (window : SeqWindow) (batchSize : Nat) :
    (applySeqWindow remaining window batchSize).2.Sublist remaining := by
  cases remaining with
  | nil => exact .refl _
  | cons head tail =>
      obtain ⟨maxSeq, reason, ⟨-, outcome⟩ | ⟨action, -, outcome⟩ | ⟨-, outcome⟩⟩ :=
        applySeqWindow_cons window head tail batchSize
      all_goals rw [outcome]
      · exact List.sublist_cons_self head tail
      all_goals exact (sortTargets_sublist tail).trans (List.sublist_cons_self head tail)

/-- The targets which the window has are saved, and no others. -/
theorem save_mem_applySeqWindow_iff {remaining : List SeqRef} {matchId : MatchId} :
    SeqWalkAction.save matchId ∈ (applySeqWindow remaining window batchSize).1 ↔
      window.has matchId ∧ matchId ∈ remaining.map SeqRef.matchId := by
  cases remaining with
  | nil => simp [applySeqWindow]
  | cons head tail =>
      obtain ⟨maxSeq, reason, ⟨none_there, outcome⟩ | ⟨action, resolved, outcome⟩ |
        ⟨unresolved, outcome⟩⟩ := applySeqWindow_cons window head tail batchSize
      all_goals rw [outcome]
      · simp [SeqWindow.has, none_there]
      · dsimp only
        rw [List.mem_cons, save_mem_sortTargets_iff, List.map_cons, List.mem_cons]
        constructor
        · rintro (rfl | ⟨returned, member⟩)
          · obtain ⟨returned, named⟩ := verdict_eq_save_iff.mp resolved
            exact ⟨named ▸ returned, .inl named.symm⟩
          · exact ⟨returned, .inr member⟩
        · rintro ⟨returned, rfl | member⟩
          · rw [verdict_eq_save_iff.mpr ⟨returned, rfl⟩] at resolved
            exact .inl (Option.some_inj.mp resolved)
          · exact .inr ⟨returned, member⟩
      · obtain ⟨absent, -⟩ := verdict_eq_none_iff.mp unresolved
        dsimp only
        rw [List.mem_append, save_mem_sortTargets_iff, List.mem_singleton, List.map_cons,
          List.mem_cons]
        constructor
        · rintro (⟨returned, member⟩ | given_up)
          · exact ⟨returned, .inr member⟩
          · cases given_up
        · rintro ⟨returned, rfl | member⟩
          · exact (absent returned).elim
          · exact .inl ⟨returned, member⟩

theorem exists_action_head (window : SeqWindow) (head : SeqRef) (tail : List SeqRef)
    (batchSize : Nat) :
    ∃ action ∈ (applySeqWindow (head :: tail) window batchSize).1,
      action.matchId = head.matchId := by
  obtain ⟨maxSeq, reason, ⟨-, outcome⟩ | ⟨action, resolved, outcome⟩ | ⟨-, outcome⟩⟩ :=
    applySeqWindow_cons window head tail batchSize
  all_goals rw [outcome]
  · exact ⟨_, List.mem_cons_self, rfl⟩
  · exact ⟨action, List.mem_cons_self, verdict_matchId resolved⟩
  · exact ⟨_, List.mem_append_right _ List.mem_cons_self, rfl⟩

/-- Behind a window fewer targets are left. -/
theorem length_applySeqWindow_le (remaining : List SeqRef) (window : SeqWindow) (batchSize : Nat) :
    (applySeqWindow remaining window batchSize).2.length ≤ remaining.length - 1 := by
  cases remaining with
  | nil => exact Nat.le_refl _
  | cons head tail =>
      have sorted (maxSeq : Int) : (sortTargets window head.matchSeqNum maxSeq tail).2.length ≤
          tail.length := (sortTargets_sublist tail).length_le
      obtain ⟨maxSeq, reason, ⟨-, outcome⟩ | ⟨action, -, outcome⟩ | ⟨-, outcome⟩⟩ :=
        applySeqWindow_cons window head tail batchSize
      all_goals rw [outcome]
      · exact Nat.le_refl _
      all_goals exact sorted maxSeq

/-! ## One window after another -/

theorem applySeqWindows_perm (remaining : List SeqRef) (windows : List (SeqWindow × Nat)) :
    let outcome := applySeqWindows remaining windows
    (outcome.1.map SeqWalkAction.matchId ++ outcome.2.map SeqRef.matchId).Perm
      (remaining.map SeqRef.matchId) := by
  induction windows generalizing remaining with
  | nil => exact .refl _
  | cons first windows ih =>
      have now := applySeqWindow_perm remaining first.1 first.2
      have later := ih (applySeqWindow remaining first.1 first.2).2
      unfold applySeqWindows
      dsimp only at now later ⊢
      rw [List.map_append, List.append_assoc]
      exact (later.append_left _).trans now

theorem length_applySeqWindows_le (remaining : List SeqRef) (windows : List (SeqWindow × Nat)) :
    (applySeqWindows remaining windows).2.length ≤ remaining.length - windows.length := by
  induction windows generalizing remaining with
  | nil => exact Nat.le_refl _
  | cons first windows ih =>
      have now := length_applySeqWindow_le remaining first.1 first.2
      have later := ih (applySeqWindow remaining first.1 first.2).2
      unfold applySeqWindows
      dsimp only
      rw [List.length_cons]
      omega

/-- Each target is resolved or kept, and not both; the kept ones stay in order, the saved ones are
those in the window, and the head is resolved. So as many windows as there are targets resolve all
of them, whatever they return. -/
theorem targets_resolved (remaining : List SeqRef)
    (distinct : (remaining.map SeqRef.matchId).Nodup) :
    (∀ window batchSize,
      let outcome := applySeqWindow remaining window batchSize
      (∀ target ∈ remaining,
        Xor (∃ action ∈ outcome.1, action.matchId = target.matchId) (target ∈ outcome.2)) ∧
      (outcome.1.map SeqWalkAction.matchId).Nodup ∧
      outcome.2.Sublist remaining ∧
      (∀ target ∈ remaining, .save target.matchId ∈ outcome.1 ↔
        target.matchId ∈ window.returned.map SeqRef.matchId) ∧
      ∀ head ∈ remaining.head?, ∃ action ∈ outcome.1, action.matchId = head.matchId) ∧
    ∀ windows : List (SeqWindow × Nat), remaining.length ≤ windows.length →
      (applySeqWindows remaining windows).2 = [] ∧
        ((applySeqWindows remaining windows).1.map SeqWalkAction.matchId).Perm
          (remaining.map SeqRef.matchId) := by
  constructor
  · intro window batchSize
    have perm := applySeqWindow_perm remaining window batchSize
    have sublist := applySeqWindow_sublist remaining window batchSize
    dsimp only at perm ⊢
    generalize outcome : applySeqWindow remaining window batchSize = result at perm sublist ⊢
    obtain ⟨resolvedNodup, -, apart⟩ := List.nodup_append.mp (perm.nodup_iff.mpr distinct)
    refine ⟨?_, resolvedNodup, sublist, ?_, ?_⟩
    · intro target member
      have known := perm.mem_iff.mpr (List.mem_map_of_mem member)
      rcases List.mem_append.mp known with resolved | left
      · refine .inl ⟨List.mem_map.mp resolved, fun left => ?_⟩
        exact apart _ resolved _ (List.mem_map_of_mem left) rfl
      · obtain ⟨same, kept, named⟩ := List.mem_map.mp left
        obtain rfl := List.inj_on_of_nodup_map distinct (sublist.subset kept) member named
        refine .inr ⟨kept, ?_⟩
        rintro ⟨action, resolved, also⟩
        exact apart _ (List.mem_map_of_mem resolved) _ left also
    · intro target member
      rw [← outcome, save_mem_applySeqWindow_iff, SeqWindow.has_iff]
      exact and_iff_left (List.mem_map_of_mem member)
    · intro head here
      cases remaining with
      | nil => cases here
      | cons first tail =>
          cases here
          rw [← outcome]
          exact exists_action_head window _ tail batchSize
  · intro windows enough
    have short := length_applySeqWindows_le remaining windows
    have perm := applySeqWindows_perm remaining windows
    have empty : (applySeqWindows remaining windows).2 = [] :=
      List.length_eq_zero_iff.mp (by omega)
    dsimp only at perm
    rw [empty, List.map_nil, List.append_nil] at perm
    exact ⟨empty, perm⟩

/-- Three targets: the window returns the second and reaches its number. -/
theorem targets_resolved_three :
    let remaining : List SeqRef := [⟨1, 10⟩, ⟨2, 11⟩, ⟨3, 12⟩]
    (remaining.map SeqRef.matchId).Nodup ∧
      .save 2 ∈ (applySeqWindow remaining ⟨[⟨2, 11⟩]⟩ 1).1 ∧
      (∃ action ∈ (applySeqWindow remaining ⟨[⟨2, 11⟩]⟩ 1).1, action.matchId = 1) ∧
      (applySeqWindows remaining [(⟨[⟨2, 11⟩]⟩, 1), (⟨[]⟩, 1), (⟨[]⟩, 1)]).2 = [] := by
  have distinct : (([⟨1, 10⟩, ⟨2, 11⟩, ⟨3, 12⟩] : List SeqRef).map SeqRef.matchId).Nodup := by
    decide
  obtain ⟨once, used⟩ := targets_resolved _ distinct
  obtain ⟨-, -, -, saves, head⟩ := once ⟨[⟨2, 11⟩]⟩ 1
  exact ⟨distinct, (saves ⟨2, 11⟩ (by decide)).mpr (by decide), head ⟨1, 10⟩ rfl,
    (used _ (Nat.le_refl _)).1⟩

end SeqWalk
end DotaCollector
