import DotaCollector.SeqWalk.System

/-!
# The numbers a walk covers

A number is covered by a window which is still to fetch it, and by a page which spans it. A page
which ends before its window does leaves the rest of the window uncovered, although the cursor is
already past it; what is published there is found only if a rewind brings the cursor back before a
later window commits. As long as nothing commits beyond an uncovered number, and the cursor is not
moved over one, every professional match that is passed by has been persisted.
-/

namespace DotaCollector
namespace SeqWalk

/-- A page reaches a number. -/
def reaches (page : List SeqMatch) (n : Nat) : Bool := page.any (n ≤ ·.matchSeqNum)

theorem reaches_iff {page : List SeqMatch} {n : Nat} :
    reaches page n = true ↔ ∃ raw ∈ page, n ≤ raw.matchSeqNum := by
  simp [reaches]

/-- A window job will see a number, or holds a page which spans it. -/
def WindowJob.covers (batchSize startAt n : Nat) (job : WindowJob) : Bool :=
  startAt ≤ n && n < startAt + batchSize &&
    match job.phase with
    | .queued => decide (job.attempts < maxAttempts)
    | .running => true
    | .fetched page => page.isEmpty || reaches page n
    | .closing => false

theorem WindowJob.alive_of_covers {batchSize startAt n : Nat} {job : WindowJob}
    (covers : job.covers batchSize startAt n = true) : job.alive = true := by
  cases job with
  | mk attempts phase => cases phase <;> simp_all [WindowJob.covers, alive]

theorem WindowJob.range_of_covers {batchSize startAt n : Nat} {job : WindowJob}
    (covers : job.covers batchSize startAt n = true) :
    startAt ≤ n ∧ n < startAt + batchSize := by
  simp only [WindowJob.covers, Bool.and_eq_true, decide_eq_true_eq] at covers
  exact covers.1

namespace State

/-- Some window job covers a number. -/
def coveredByJob (state : State) (batchSize n : Nat) : Bool :=
  (List.range (n + 1)).any fun startAt =>
    (state.jobs startAt).any (WindowJob.covers batchSize startAt n)

/-- Some committed page spans a number. -/
def coveredByPage (state : State) (n : Nat) : Bool :=
  state.pages.any fun entry => entry.1 ≤ n && reaches entry.2 n

def covered (state : State) (batchSize n : Nat) : Bool :=
  state.coveredByJob batchSize n || state.coveredByPage n

/-- Some committed page has a match above a number. -/
def passed (state : State) (n : Nat) : Bool :=
  state.pages.any fun entry => reaches entry.2 (n + 1)

theorem coveredByJob_iff {state : State} {batchSize n : Nat} :
    state.coveredByJob batchSize n = true ↔ ∃ startAt job,
      state.jobs startAt = some job ∧ job.covers batchSize startAt n = true := by
  simp only [coveredByJob, List.any_eq_true, List.mem_range, Option.any_eq_true]
  constructor
  · rintro ⟨startAt, -, job, found, covers⟩
    exact ⟨startAt, job, found, covers⟩
  · rintro ⟨startAt, job, found, covers⟩
    have range := WindowJob.range_of_covers covers
    exact ⟨startAt, by omega, job, found, covers⟩

theorem coveredByPage_iff {state : State} {n : Nat} :
    state.coveredByPage n = true ↔
      ∃ startAt page, (startAt, page) ∈ state.pages ∧ startAt ≤ n ∧ reaches page n = true := by
  simp [coveredByPage]

theorem passed_iff {state : State} {n : Nat} :
    state.passed n = true ↔
      ∃ startAt page, (startAt, page) ∈ state.pages ∧ reaches page (n + 1) = true := by
  simp [passed]

/-! ## The condition on a step -/

/-- No number is left out by a step: when a window commits a page, every number from the beginning
of the walk up to the window is covered; and where a claim or a rewind moves the cursor forward,
every number it moves over is covered, unless no committed page has a match above it. -/
def leavesNoGap (batchSize first : Nat) (state : State) : Event → Bool
  | .advance walker =>
      match state.walkers walker with
      | some (.advance cursor) =>
          state.cursor != cursor || decide (∀ n < claimAdvance cursor batchSize,
            first ≤ n → cursor ≤ n → state.passed n = true → state.covered batchSize n = true)
      | _ => true
  | .write startAt =>
      match state.jobs startAt with
      | some ⟨_, .fetched page⟩ =>
          if page.isEmpty then
            decide (∀ n < rewindSeqWalkCursor startAt, first ≤ n → state.cursor ≤ n →
              state.passed n = true → state.covered batchSize n = true)
          else decide (∀ n < startAt, first ≤ n → state.covered batchSize n = true)
      | _ => true
  | _ => true

/-- No job uses up its attempts. -/
def attemptsLeft (state : State) : Event → Bool
  | .throw startAt => (state.jobs startAt).all (·.attempts + 1 < maxAttempts)
  | _ => true

/-! ## The invariant -/

/-- What holds throughout a walk which leaves no gap. -/
structure Walked (batchSize first : Nat) (state : State) : Prop where
  increasing : Stream.Increasing SeqMatch.matchSeqNum state.published
  fetched : ∀ startAt attempts page, state.jobs startAt = some ⟨attempts, .fetched page⟩ →
    ∃ front, front <+: state.published ∧
      page = getMatchHistoryBySequenceNum front startAt batchSize
  known : ∀ startAt page, (startAt, page) ∈ state.pages → ∀ raw ∈ page, raw ∈ state.published
  persisted : ∀ startAt page, (startAt, page) ∈ state.pages → ∀ raw ∈ state.published,
    isProfessionalSeqMatch raw = true → startAt ≤ raw.matchSeqNum →
    reaches page raw.matchSeqNum = true → raw ∈ state.persisted
  covered : ∀ n, first ≤ n → n < state.cursor → state.passed n = true →
    state.covered batchSize n = true

variable {batchSize first : Nat} {state after : State}

theorem walked_initial {cursor : Nat} {published : List SeqMatch}
    (increasing : Stream.Increasing SeqMatch.matchSeqNum published) :
    (initial cursor published).Walked batchSize cursor where
  increasing := increasing
  fetched startAt attempts page found := by cases found
  known startAt page found := by cases found
  persisted startAt page found := by cases found
  covered n above below passed := by cases passed

/-! ## Steps of the jobs -/

/-- A number stays covered if the job which covered it is replaced by one which does, or a page
spans it. -/
theorem covered_setJob {startAt n : Nat} {work : Option WindowJob}
    (covered : state.covered batchSize n = true)
    (replaced : ∀ job, state.jobs startAt = some job → job.covers batchSize startAt n = true →
      (∃ new, work = some new ∧ new.covers batchSize startAt n = true) ∨
        state.coveredByPage n = true) :
    (state.setJob startAt work).covered batchSize n = true := by
  rw [State.covered, Bool.or_eq_true] at covered ⊢
  rcases covered with byJob | byPage
  · rw [coveredByJob_iff] at byJob ⊢
    obtain ⟨other, job, found, covers⟩ := byJob
    by_cases same : other = startAt
    · subst same
      refine (replaced job found covers).imp_left ?_
      rintro ⟨new, rfl, covers⟩
      exact ⟨other, new, by simp [setJob], covers⟩
    · exact .inl ⟨other, job, by simpa [setJob, same] using found, covers⟩
  · exact .inr byPage

theorem Walked.setJob {startAt : Nat} {work : Option WindowJob}
    (walked : state.Walked batchSize first)
    (fetched : ∀ attempts page, work = some ⟨attempts, .fetched page⟩ →
      ∃ front, front <+: state.published ∧
        page = getMatchHistoryBySequenceNum front startAt batchSize)
    (replaced : ∀ n, first ≤ n → n < state.cursor → state.passed n = true →
      ∀ job, state.jobs startAt = some job → job.covers batchSize startAt n = true →
        (∃ new, work = some new ∧ new.covers batchSize startAt n = true) ∨
          state.coveredByPage n = true) :
    (state.setJob startAt work).Walked batchSize first where
  increasing := walked.increasing
  fetched other attempts page found := by
    by_cases same : other = startAt
    · subst same
      exact fetched attempts page (by simpa [State.setJob] using found)
    · exact walked.fetched other attempts page (by simpa [State.setJob, same] using found)
  known := walked.known
  persisted := walked.persisted
  covered n above below passed :=
    covered_setJob (walked.covered n above below passed) (replaced n above below passed)

theorem Walked.setWalker {walker : Nat} {claim : Option Claim}
    (walked : state.Walked batchSize first) :
    (state.setWalker walker claim).Walked batchSize first :=
  ⟨walked.increasing, walked.fetched, walked.known, walked.persisted, walked.covered⟩

theorem Walked.enqueue {startAt : Nat} (walked : state.Walked batchSize first) :
    (state.enqueueFetchSeqWindow startAt).Walked batchSize first := by
  rw [enqueueFetchSeqWindow]
  split
  · exact walked
  · rename_i absent
    refine walked.setJob (by simp) fun n _ _ _ job found => ?_
    simp [absent] at found

/-- The page of a window reaches every number of the window which has been passed. -/
theorem Walked.reaches_fetched {startAt n : Nat} (walked : state.Walked batchSize first)
    (passed : state.passed n = true) (above : startAt ≤ n) (below : n < startAt + batchSize) :
    reaches (getMatchHistoryBySequenceNum state.published startAt batchSize) n = true := by
  obtain ⟨start, page, committed, beyond⟩ := passed_iff.mp passed
  obtain ⟨later, inside, further⟩ := reaches_iff.mp beyond
  exact reaches_iff.mpr (walked.increasing.exists_mem_window
    (walked.known start page committed later inside) further above below)

theorem Walked.fetch {startAt attempts : Nat} (walked : state.Walked batchSize first)
    (found : state.jobs startAt = some ⟨attempts, .running⟩) :
    (state.setJob startAt (some ⟨attempts, .fetched
      (getMatchHistoryBySequenceNum state.published startAt batchSize)⟩)).Walked batchSize
        first := by
  refine walked.setJob (fun _ _ same => ?_) fun n _ _ passed job running covers => ?_
  · cases same
    exact ⟨state.published, List.prefix_refl _, rfl⟩
  · obtain rfl := Option.some.inj (running.symm.trans found)
    have range := WindowJob.range_of_covers covers
    refine .inl ⟨_, rfl, ?_⟩
    simp [WindowJob.covers, range, walked.reaches_fetched passed range.1 range.2]

/-- A job covers its whole window again once it is to run, or to run again. -/
theorem Walked.rerun {startAt : Nat} {job : WindowJob} (walked : state.Walked batchSize first)
    (whole : ∀ n, startAt ≤ n → n < startAt + batchSize →
      job.covers batchSize startAt n = true)
    (unfetched : ∀ page, job.phase ≠ .fetched page) :
    (state.setJob startAt (some job)).Walked batchSize first := by
  refine walked.setJob (fun attempts page same => ?_) fun n _ _ _ _ _ covers => ?_
  · cases same
    exact absurd rfl (unfetched page)
  · have range := WindowJob.range_of_covers covers
    exact .inl ⟨job, rfl, whole n range.1 range.2⟩

/-! ## Steps of the cursor -/

/-- The cursor may move over numbers which are covered, or which nothing has passed. -/
theorem Walked.setCursor {cursor : Nat} (walked : state.Walked batchSize first)
    (moved : ∀ n, first ≤ n → state.cursor ≤ n → n < cursor → state.passed n = true →
      state.covered batchSize n = true) :
    ({ state with cursor } : State).Walked batchSize first where
  increasing := walked.increasing
  fetched := walked.fetched
  known := walked.known
  persisted := walked.persisted
  covered n above below passed := by
    by_cases behind : n < state.cursor
    · exact walked.covered n above behind passed
    · exact moved n above (not_lt.mp behind) below passed

theorem Walked.casAdvance {cursor : Nat} (walked : state.Walked batchSize first)
    (moved : state.cursor = cursor → ∀ n < claimAdvance cursor batchSize, first ≤ n →
      cursor ≤ n → state.passed n = true → state.covered batchSize n = true) :
    (state.casAdvanceSeqWalkCursor cursor (claimAdvance cursor batchSize)).Walked batchSize
      first := by
  rw [casAdvanceSeqWalkCursor]
  split
  · rename_i same
    refine walked.setCursor fun n above beyond below passed => ?_
    exact moved same n below above (same ▸ beyond) passed
  · exact walked

/-! ## The writes of a window -/

theorem covered_of_pages {pages : List (Nat × List SeqMatch)} {n : Nat}
    (covered : state.covered batchSize n = true) (kept : state.pages ⊆ pages)
    (same : after.jobs = state.jobs) (now : after.pages = pages) :
    after.covered batchSize n = true := by
  rw [State.covered, Bool.or_eq_true] at covered ⊢
  refine covered.imp (fun byJob => ?_) fun byPage => ?_
  · rw [coveredByJob_iff] at byJob ⊢
    exact same ▸ byJob
  · rw [coveredByPage_iff] at byPage ⊢
    obtain ⟨startAt, page, found, spans⟩ := byPage
    exact ⟨startAt, page, now ▸ kept found, spans⟩

theorem committed_cases {start startAt : Nat} {old page : List SeqMatch}
    {pages : List (Nat × List SeqMatch)} (committed : (start, old) ∈ (startAt, page) :: pages) :
    start = startAt ∧ old = page ∨ (start, old) ∈ pages := by
  simpa using committed

/-- A committed page covers what it reaches; below its start and above its matches, what was
covered stays covered. -/
theorem Walked.covered_writePage {startAt n : Nat} {page : List SeqMatch} {highest : SeqMatch}
    (walked : state.Walked batchSize first) (inside : highest ∈ page)
    (pages : after.pages = (startAt, page) :: state.pages) (jobs : after.jobs = state.jobs)
    (before : n < startAt → state.covered batchSize n = true) (above : first ≤ n)
    (below : n < bumpSeqWalkCursor state.cursor highest.matchSeqNum)
    (passed : after.passed n = true) : after.covered batchSize n = true := by
  by_cases behind : n < startAt
  · exact covered_of_pages (before behind) (List.subset_cons_self _ _) jobs pages
  by_cases reached : reaches page n = true
  · rw [State.covered, Bool.or_eq_true, coveredByPage_iff, pages]
    exact .inr ⟨startAt, page, List.mem_cons_self .., not_lt.mp behind, reached⟩
  have beyond : ∀ raw ∈ page, raw.matchSeqNum < n := by
    simpa [reaches] using reached
  have bound : highest.matchSeqNum < n := beyond highest inside
  have belowCursor : n < state.cursor := by
    rw [bumpSeqWalkCursor] at below
    split at below
    · exact below
    · omega
  have passedBefore : state.passed n = true := by
    rw [passed_iff] at passed ⊢
    obtain ⟨start, old, committed, further⟩ := passed
    rw [pages] at committed
    rcases committed_cases committed with ⟨rfl, rfl⟩ | older
    · obtain ⟨last, within, higher⟩ := reaches_iff.mp further
      have lower := beyond last within
      omega
    · exact ⟨start, old, older, further⟩
  exact covered_of_pages (walked.covered n above belowCursor passedBefore)
    (List.subset_cons_self _ _) jobs pages

theorem Walked.writePage {startAt attempts : Nat} {page : List SeqMatch}
    (walked : state.Walked batchSize first)
    (found : state.jobs startAt = some ⟨attempts, .fetched page⟩)
    (nonempty : page.isEmpty = false)
    (before : ∀ n < startAt, first ≤ n → state.covered batchSize n = true) :
    (state.writePage startAt page).Walked batchSize first := by
  obtain ⟨front, earlier, fetched⟩ := walked.fetched startAt attempts page found
  have listed : page ≠ [] := by
    rintro rfl
    cases nonempty
  obtain ⟨highest, inside, attained⟩ := exists_highestSeqNum listed
  simp only [State.writePage, nonempty, Bool.false_eq_true, if_false, attained]
  refine ⟨walked.increasing, walked.fetched, ?_, ?_, fun n above below passed =>
    walked.covered_writePage inside rfl rfl (fun behind => before n behind above) above below
      passed⟩
  · intro start old committed raw within
    rcases committed_cases committed with ⟨rfl, rfl⟩ | older
    · rw [fetched] at within
      exact earlier.subset (Stream.mem_of_mem_window within)
    · exact walked.known start old older raw within
  · intro start old committed raw published professional above reached
    rcases committed_cases committed with ⟨rfl, rfl⟩ | older
    · obtain ⟨last, within, below⟩ := reaches_iff.mp reached
      rw [fetched] at within
      have member := walked.increasing.mem_window earlier within published above below
      refine List.mem_append_left _ (List.mem_filter.mpr ⟨?_, professional⟩)
      rw [fetched]
      exact member
    · exact List.mem_append_right _
        (walked.persisted start old older raw published professional above reached)

theorem Walked.write {startAt : Nat} (walked : state.Walked batchSize first) (one : 1 ≤ first)
    (noGap : leavesNoGap batchSize first state (.write startAt) = true)
    (step : state.next batchSize (.write startAt) = some after) :
    after.Walked batchSize first := by
  simp only [State.next] at step
  split at step
  · rename_i attempts page found
    cases step
    simp only [leavesNoGap, found] at noGap
    cases empty : page.isEmpty with
    | true =>
        simp only [empty, if_true, decide_eq_true_eq] at noGap
        simp only [State.writePage, empty, if_true]
        have rewound := walked.setCursor fun n above beyond below passed =>
          noGap n below above beyond passed
        refine rewound.setJob (by simp) fun n above below _ job _ covers => ?_
        have range := WindowJob.range_of_covers covers
        simp only [rewindSeqWalkCursor] at below
        omega
    | false =>
        simp only [empty, Bool.false_eq_true, if_false, decide_eq_true_eq] at noGap
        have written := walked.writePage found empty noGap
        refine written.setJob (by simp) fun n above _ _ job same covers => .inr ?_
        have jobs : (state.writePage startAt page).jobs = state.jobs := by
          simp [State.writePage, empty]
        rw [jobs, found] at same
        cases same
        simp only [WindowJob.covers, empty, Bool.false_or, Bool.and_eq_true,
          decide_eq_true_eq] at covers
        rw [coveredByPage_iff]
        refine ⟨startAt, page, ?_, covers.1.1, covers.2⟩
        simp [State.writePage, empty]
  · cases step

/-! ## Steps and runs -/

theorem Walked.publish {raw : SeqMatch} (walked : state.Walked batchSize first)
    (step : state.next batchSize (.publish raw) = some after) : after.Walked batchSize first := by
  obtain ⟨above, ⟨⟩⟩ := Option.ite_none_right_eq_some.mp step
  have above : ∀ other ∈ state.published, other.matchSeqNum < raw.matchSeqNum := by
    simpa using above
  refine ⟨walked.increasing.append_singleton above, ?_, ?_, ?_, walked.covered⟩
  · intro startAt attempts page found
    obtain ⟨front, earlier, fetched⟩ := walked.fetched startAt attempts page found
    exact ⟨front, earlier.trans (List.prefix_append _ _), fetched⟩
  · intro startAt page committed other inside
    exact List.mem_append_left _ (walked.known startAt page committed other inside)
  · intro startAt page committed other published professional inWindow reached
    rcases List.mem_append.mp published with older | newest
    · exact walked.persisted startAt page committed other older professional inWindow reached
    · obtain rfl := List.mem_singleton.mp newest
      obtain ⟨last, inside, below⟩ := reaches_iff.mp reached
      have bound := above last (walked.known startAt page committed last inside)
      omega

/-- A step which leaves no gap, and no job without attempts, keeps the invariant. -/
theorem Walked.next {event : Event} (walked : state.Walked batchSize first) (one : 1 ≤ first)
    (left : attemptsLeft state event = true)
    (noGap : leavesNoGap batchSize first state event = true)
    (step : state.next batchSize event = some after) : after.Walked batchSize first := by
  cases event with
  | publish raw => exact walked.publish step
  | read walker =>
      simp only [State.next] at step
      split at step
      · cases step
      · obtain ⟨-, ⟨⟩⟩ := Option.ite_none_left_eq_some.mp step
        exact walked.setWalker
  | check walker answered =>
      simp only [State.next] at step
      split at step
      · cases step
        exact walked.setWalker
      · cases step
  | enqueue walker =>
      simp only [State.next] at step
      split at step
      · cases step
        exact walked.enqueue.setWalker
      · cases step
  | advance walker =>
      simp only [State.next] at step
      split at step
      · rename_i cursor claiming
        cases step
        refine (walked.casAdvance fun same => ?_).setWalker
        simpa [leavesNoGap, claiming, same] using noGap
      · cases step
  | quit walker =>
      cases step
      exact walked.setWalker
  | start startAt =>
      simp only [State.next] at step
      split at step
      · obtain ⟨-, ⟨⟩⟩ := Option.ite_none_right_eq_some.mp step
        exact walked.rerun (by simp +contextual [WindowJob.covers]) (by simp)
      · cases step
  | fetch startAt =>
      simp only [State.next] at step
      split at step
      · rename_i attempts running
        cases step
        exact walked.fetch running
      · cases step
  | write startAt => exact walked.write one noGap step
  | finish startAt =>
      simp only [State.next] at step
      split at step
      · rename_i attempts closing
        cases step
        refine walked.setJob (by simp) fun n _ _ _ job found covers => ?_
        rw [closing] at found
        cases found
        simp [WindowJob.covers] at covers
      · cases step
  | throw startAt =>
      simp only [State.next] at step
      split at step
      · cases step
      · cases step
      · rename_i job found
        cases step
        simp only [attemptsLeft, found, Option.all_some, decide_eq_true_eq] at left
        exact walked.rerun (by simp +contextual [WindowJob.covers, WindowJob.fail, left])
          (by simp [WindowJob.fail])
  | noReadyKey startAt =>
      simp only [State.next] at step
      split at step
      · cases step
        exact walked.rerun (by simp +contextual [WindowJob.covers, maxAttempts]) (by simp)
      · cases step

/-- In a walk in which no job uses up its attempts, and no step leaves a gap, every professional
match which the walk has passed by is persisted: it is numbered from the first cursor on and below
the cursor, no window job which starts at or below it is left, and some committed page has a match
above it. -/
theorem walked_match_persisted (batchSize first : Nat) (published : List SeqMatch)
    (events : List Event) (one : 1 ≤ first)
    (increasing : Stream.Increasing SeqMatch.matchSeqNum published)
    (left : Schedule.Throughout (State.next batchSize)
      (fun state event => attemptsLeft state event = true) (initial first published) events)
    (noGap : Schedule.Throughout (State.next batchSize)
      (fun state event => leavesNoGap batchSize first state event = true)
      (initial first published) events)
    (execution : Schedule.run (State.next batchSize) (initial first published) events =
      some state) :
    ∀ raw ∈ state.published, isProfessionalSeqMatch raw = true → first ≤ raw.matchSeqNum →
      raw.matchSeqNum < state.cursor →
      (∀ startAt ≤ raw.matchSeqNum, state.jobKeyIsAlive startAt true = false) →
      state.passed raw.matchSeqNum = true → raw ∈ state.persisted := by
  intro raw published professional above below dead passed
  have walked : state.Walked batchSize first :=
    (left.and noGap).run_invariant
      (fun walked holds step => walked.next one holds.1 holds.2 step)
      (walked_initial increasing) execution
  have covered := walked.covered _ above below passed
  rw [State.covered, Bool.or_eq_true, coveredByJob_iff, coveredByPage_iff] at covered
  rcases covered with ⟨startAt, job, found, covers⟩ | ⟨startAt, page, committed, inWindow, reached⟩
  · have range := WindowJob.range_of_covers covers
    have gone := dead startAt range.1
    simp [jobKeyIsAlive, found, WindowJob.alive_of_covers covers] at gone
  · exact walked.persisted startAt page committed raw published professional inWindow reached

/-! ## A partly filled window -/

/-- A professional match of the stream. -/
def leagueMatch (seqNum : Nat) : SeqMatch where
  matchId := 7000 + seqNum
  matchSeqNum := seqNum
  leagueid := some 17765

/-- A walker claims the window at the cursor, and its job fetches it and commits. -/
def windowAt (startAt : Nat) : List Event :=
  [.read 0, .check 0 true, .enqueue 0, .advance 0, .start startAt, .fetch startAt,
    .write startAt, .finish startAt]

/-- The window at 12 holds one match only, and commits it while the one at 10 still waits. -/
def partlyFilled : List Event :=
  [.read 0, .check 0 true, .enqueue 0, .advance 0, .start 10, .fetch 10, .publish (leagueMatch 12),
    .read 1, .check 1 true, .enqueue 1, .advance 1, .start 12, .fetch 12, .write 12, .write 10,
    .finish 10, .finish 12]

/-- The numbers below the partly filled window are covered by the job which waits. -/
theorem walked_match_persisted_partlyFilled :
    ∃ state, Schedule.run (State.next 2) (initial 10 [leagueMatch 10, leagueMatch 11])
        partlyFilled = some state ∧ leagueMatch 11 ∈ state.persisted := by
  refine ⟨_, rfl, ?_⟩
  exact walked_match_persisted 2 10 [leagueMatch 10, leagueMatch 11] partlyFilled (by decide)
    (by decide) (by decide) (by decide) rfl (leagueMatch 11) (by decide) (by decide) (by decide)
    (by decide) (by decide) (by decide)

/-- The window at 10 is fetched when only match 10 is published. Matches 11 and 12 appear, the
window at 12 commits, and match 11 is never fetched. -/
theorem partial_window_loses_match :
    ∃ state, Schedule.run (State.next 2) (initial 10 [leagueMatch 10])
        (windowAt 10 ++ [.publish (leagueMatch 11), .publish (leagueMatch 12)] ++ windowAt 12) =
          some state ∧
      ¬ ∀ raw ∈ state.published, isProfessionalSeqMatch raw = true → 10 ≤ raw.matchSeqNum →
        raw.matchSeqNum < state.cursor →
        (∀ startAt ≤ raw.matchSeqNum, state.jobKeyIsAlive startAt true = false) →
        state.passed raw.matchSeqNum = true → raw ∈ state.persisted := by
  refine ⟨_, rfl, fun persisted => ?_⟩
  have lost := persisted (leagueMatch 11) (by decide) (by decide) (by decide) (by decide)
    (by decide) (by decide)
  exact absurd lost (by decide)

end State

end SeqWalk
end DotaCollector
