import DotaCollector.Resources.Health

/-!
# A resource which was given up

`disableResource` with `giveUp` marks a dead credential by its status and by a full retest
counter. Several statements write the status, and one the counter, without a look at either, so
the mark holds only as long as none of them comes behind it.
-/

namespace DotaCollector
namespace Resources

variable {Process : Type*} [DecidableEq Process]

/-- The row alone will let the resource be picked, now or later. -/
def Pickable (kind : ResourceKind) (row : Resource) : Prop := ∃ now, pickable kind now row = true

/-- The resource can be picked neither now nor later, and no retest tick selects it. -/
def Closed (kind : ResourceKind) (settings : HealthSettings) (row : Resource) : Prop :=
  ¬ Pickable kind row ∧ retestEligible settings row = false

/-- The statements which a resource that was given up does not survive: the write of a pick, a
disable behind a crossed window, the seed of a key, a login, and an error of an account which
neither disables nor rests it. -/
def SparesGivenUp (state : State Process) : Event Process → Prop
  | .pick _ | .seed | .accountLogin => False
  | .update process =>
      match state.phase process with
      | .disabling _ false => False
      | _ => True
  | .accountError _ disable rateLimitMs _ => disable = true ∨ rateLimitMs.getD 0 ≠ 0
  | _ => True

instance (state : State Process) (event : Event Process) :
    Decidable (SparesGivenUp state event) := by
  unfold SparesGivenUp
  split
  case h_4 => split <;> infer_instance
  all_goals infer_instance

/-! ## What a step can do -/

/-- The steps of the system, each with its guard and its successor. -/
inductive Moves (kind : ResourceKind) (settings : HealthSettings) (state : State Process) :
    Event Process → State Process → Prop where
  | select {process : Process} {now : Nat} {scene : Bool} (key : kind = .apiKey)
      (free : pickable kind now state.row = true) :
      Moves kind settings state (.select process now scene) (state.setPhase process .picked)
  | pick {process : Process} (picked : state.phase process = .picked) :
      Moves kind settings state (.pick process) ((state.setPhase process .idle).write takeKey)
  | giveUp {process : Process} {error : String} :
      Moves kind settings state (.giveUp process error)
        (state.setPhase process (.disabling error true))
  | attempt {process : Process} {ok : Bool} {error : String} {phase : Phase}
      {attempts : List Bool}
      (entered : phase = .idle ∨ phase = .disabling error false ∨ phase = .noting error) :
      Moves kind settings state (.attempt process ok error)
        { state.setPhase process phase with attempts }
  | update {process : Process} {statement : Resource → Resource}
      (about : pending settings (state.phase process) = some statement) :
      Moves kind settings state (.update process)
        ((state.setPhase process .idle).write statement)
  | selectRetest {process : Process} {scene : Bool}
      (eligible : retestEligible settings state.row = true) :
      Moves kind settings state (.selectRetest process scene) (state.setPhase process .probing)
  | probe {process : Process} {result : Except String Unit} {phase : Phase}
      (probing : state.phase process = .probing) :
      Moves kind settings state (.probe process result) (state.setPhase process phase)
  | markRateLimited {error : String} {until_ : Nat} (key : kind = .apiKey) :
      Moves kind settings state (.markRateLimited error until_)
        (state.write (markApiKeyRateLimited error until_))
  | clearRateLimit (key : kind = .apiKey) :
      Moves kind settings state .clearRateLimit (state.write clearApiKeyRateLimit)
  | seed (key : kind = .apiKey) : Moves kind settings state .seed (state.write seedKey)
  | accountError {error : String} {disable : Bool} {rateLimitMs : Option Nat} {now : Nat}
      (account : kind = .gcAccount) :
      Moves kind settings state (.accountError error disable rateLimitMs now)
        (state.write (markAccountError error disable rateLimitMs now))
  | accountLogin (account : kind = .gcAccount) :
      Moves kind settings state .accountLogin (state.write markAccountLogin)

variable {kind : ResourceKind} {settings : HealthSettings} {state after : State Process}
  {event : Event Process} {row : Resource}

theorem moves_of_next (step : next kind settings state event = some after) :
    Moves kind settings state event after := by
  cases event with
  | select process now scene =>
      simp only [next] at step
      split at step
      · split at step
        · cases step
          rename_i selected
          rw [Bool.and_eq_true] at selected
          exact .select rfl selected.1
        · cases step
      · cases step
  | pick process =>
      simp only [next] at step
      split at step
      · cases step
        exact .pick ‹_›
      · cases step
  | giveUp process error =>
      simp only [next] at step
      split at step
      · cases step
        exact .giveUp
      · cases step
  | attempt process ok error =>
      simp only [next] at step
      split at step
      · cases step
        refine .attempt ?_
        split_ifs
        · exact .inl rfl
        · exact .inr (.inl rfl)
        · exact .inr (.inr rfl)
      · cases step
  | update process =>
      obtain ⟨statement, about, rfl⟩ := Option.map_eq_some_iff.mp step
      exact .update about
  | selectRetest process scene =>
      simp only [next] at step
      split at step
      · split at step
        · cases step
          rename_i selected
          rw [Bool.and_eq_true] at selected
          exact .selectRetest selected.1
        · cases step
      · cases step
  | probe process result =>
      simp only [next] at step
      split at step
      · split at step
        · cases step
          exact .probe ‹_›
        · cases step
          exact .probe ‹_›
      · cases step
  | markRateLimited error until_ =>
      simp only [next] at step
      split at step
      · cases step
        exact .markRateLimited ‹_›
      · cases step
  | clearRateLimit =>
      simp only [next] at step
      split at step
      · cases step
        exact .clearRateLimit ‹_›
      · cases step
  | seed =>
      simp only [next] at step
      split at step
      · cases step
        exact .seed ‹_›
      · cases step
  | accountError error disable rateLimitMs now =>
      simp only [next] at step
      split at step
      · cases step
        exact .accountError ‹_›
      · cases step
  | accountLogin =>
      simp only [next] at step
      split at step
      · cases step
        exact .accountLogin ‹_›
      · cases step

/-! ## Closed rows -/

/-- A rest of the resource ends some day, so only the status counts. -/
theorem pickable_iff : Pickable kind row ↔ usable kind row.status = true := by
  constructor
  · rintro ⟨now, free⟩
    rw [pickable, Bool.and_eq_true] at free
    exact free.1
  · intro free
    refine ⟨row.rateLimitedUntil.elim 0 (· + 1), ?_⟩
    rw [pickable, free, Bool.true_and]
    cases row.rateLimitedUntil with
    | none => rfl
    | some until_ => simp

theorem closed_iff : Closed kind settings row ↔
    usable kind row.status = false ∧
      (row.status = .disabled → settings.retestMax ≤ row.retestCount) := by
  rw [Closed, pickable_iff, Bool.not_eq_true]
  refine and_congr_right fun _ => ?_
  simp [retestEligible]

theorem not_closed_of_usable (free : usable kind row.status = true) :
    ¬ Closed kind settings row :=
  fun closed => closed.1 (pickable_iff.mpr free)

/-- The mark of a give-up, and no retest tick which has selected the resource before it. -/
structure GivenUp (kind : ResourceKind) (settings : HealthSettings) (state : State Process) :
    Prop where
  unusable : usable kind state.row.status = false
  exhausted : settings.retestMax ≤ state.row.retestCount
  unprobed : ∀ process, state.phase process ≠ .probing ∧ state.phase process ≠ .restoring

omit [DecidableEq Process] in
theorem GivenUp.closed (givenUp : GivenUp kind settings state) :
    Closed kind settings state.row :=
  closed_iff.mpr ⟨givenUp.unusable, fun _ => givenUp.exhausted⟩

/-- A step of one process which leaves the row alone and selects nothing for a retest. -/
theorem GivenUp.setPhase (givenUp : GivenUp kind settings state) (process : Process)
    {phase : Phase} (quiet : phase ≠ .probing ∧ phase ≠ .restoring) :
    GivenUp kind settings (state.setPhase process phase) where
  unusable := givenUp.unusable
  exhausted := givenUp.exhausted
  unprobed := Processes.forall_update (fun phase : Phase => phase ≠ .probing ∧ phase ≠ .restoring)
    quiet fun other _ => givenUp.unprobed other

omit [DecidableEq Process] in
/-- A write behind which the resource is unusable and its counter still full. -/
theorem GivenUp.write (givenUp : GivenUp kind settings state) {statement : Resource → Resource}
    (unusable : usable kind (statement state.row).status = false)
    (exhausted : settings.retestMax ≤ (statement state.row).retestCount) :
    GivenUp kind settings (state.write statement) where
  unusable := unusable
  exhausted := exhausted
  unprobed := givenUp.unprobed

omit [DecidableEq Process] in
/-- Only a disabled key is unusable. -/
theorem GivenUp.status_eq_disabled (givenUp : GivenUp .apiKey settings state) :
    state.row.status = .disabled := by
  have unusable := givenUp.unusable
  cases found : state.row.status with
  | disabled => rfl
  | ready | active | rateLimited => simp [usable, found] at unusable

/-! ## One step behind a give-up -/

/-- The two outcomes of a step: the mark survives, or the row is open again. -/
def Outcome (kind : ResourceKind) (settings : HealthSettings) (state : State Process)
    (event : Event Process) (after : State Process) : Prop :=
  SparesGivenUp state event ∧ GivenUp kind settings after ∨
    ¬ SparesGivenUp state event ∧ ¬ Closed kind settings after.row

theorem GivenUp.update (givenUp : GivenUp kind settings state) {process : Process}
    {statement : Resource → Resource}
    (about : pending settings (state.phase process) = some statement) :
    Outcome kind settings state (.update process)
      ((state.setPhase process .idle).write statement) := by
  have moved : GivenUp kind settings (state.setPhase process .idle) :=
    givenUp.setPhase process (by simp)
  have disabled : usable kind .disabled = false := by cases kind <;> rfl
  cases phase : state.phase process with
  | idle | picked | probing =>
      rw [phase] at about
      cases about
  | restoring => exact ((givenUp.unprobed process).2 phase).elim
  | noting error =>
      rw [phase] at about
      cases about
      refine .inl ⟨by simp [SparesGivenUp, phase], moved.write ?_ ?_⟩
      · exact givenUp.unusable
      · exact givenUp.exhausted
  | bumping error =>
      rw [phase] at about
      cases about
      refine .inl ⟨by simp [SparesGivenUp, phase], moved.write ?_ ?_⟩
      · exact givenUp.unusable
      · exact Nat.le_succ_of_le givenUp.exhausted
  | disabling error giveUp =>
      rw [phase] at about
      cases about
      cases giveUp with
      | true =>
          refine .inl ⟨by simp [SparesGivenUp, phase], moved.write ?_ ?_⟩
          · exact disabled
          · exact Nat.le_refl _
      | false =>
          refine .inr ⟨by simp [SparesGivenUp, phase], fun closed => ?_⟩
          -- the counter starts again, so the next retest tick selects the resource
          have exhausted : settings.retestMax ≤ 0 := (closed_iff.mp closed).2 rfl
          have positive := settings.retestMax_pos
          omega

omit [DecidableEq Process] in
theorem GivenUp.accountError (givenUp : GivenUp .gcAccount settings state) (error : String)
    (disable : Bool) (rateLimitMs : Option Nat) (now : Nat) :
    Outcome .gcAccount settings state (.accountError error disable rateLimitMs now)
      (state.write (markAccountError error disable rateLimitMs now)) := by
  cases disable with
  | true => exact .inl ⟨.inl rfl, givenUp.write rfl givenUp.exhausted⟩
  | false =>
      rcases eq_or_ne (rateLimitMs.getD 0) 0 with none | some
      · refine .inr ⟨by simp [SparesGivenUp, none], not_closed_of_usable ?_⟩
        simp [State.write, markAccountError, none, usable]
      · refine .inl ⟨.inr some, givenUp.write ?_ givenUp.exhausted⟩
        simp [markAccountError, some, usable]

theorem GivenUp.next_cases (givenUp : GivenUp kind settings state)
    (step : next kind settings state event = some after) :
    Outcome kind settings state event after := by
  cases moves_of_next step with
  | select | giveUp => exact .inl ⟨trivial, givenUp.setPhase _ (by simp)⟩
  | @attempt process ok error phase attempts entered =>
      have quiet : phase ≠ .probing ∧ phase ≠ .restoring := by
        rcases entered with rfl | rfl | rfl <;> simp
      have moved := givenUp.setPhase process quiet
      exact .inl ⟨trivial, moved.unusable, moved.exhausted, moved.unprobed⟩
  | pick picked =>
      refine .inr ⟨id, not_closed_of_usable ?_⟩
      cases kind with
      | apiKey | gcAccount => rfl
  | update about => exact givenUp.update about
  | selectRetest eligible =>
      rw [givenUp.closed.2] at eligible
      cases eligible
  | probe probing => exact ((givenUp.unprobed _).1 probing).elim
  | @markRateLimited error until_ key =>
      subst key
      have same : markApiKeyRateLimited error until_ state.row = state.row :=
        if_neg (not_not.mpr givenUp.status_eq_disabled)
      refine .inl ⟨trivial, givenUp.write ?_ ?_⟩
      · rw [same]
        exact givenUp.unusable
      · rw [same]
        exact givenUp.exhausted
  | clearRateLimit key =>
      subst key
      have same : clearApiKeyRateLimit state.row = state.row :=
        if_neg (not_not.mpr givenUp.status_eq_disabled)
      refine .inl ⟨trivial, givenUp.write ?_ ?_⟩
      · rw [same]
        exact givenUp.unusable
      · rw [same]
        exact givenUp.exhausted
  | seed key =>
      subst key
      exact .inr ⟨id, not_closed_of_usable rfl⟩
  | accountError account =>
      subst account
      exact givenUp.accountError _ _ _ _
  | accountLogin account =>
      subst account
      exact .inr ⟨id, not_closed_of_usable rfl⟩

/-! ## Every run behind a give-up -/

omit [DecidableEq Process] in
theorem givenUp_of_disable {state : State Process} {error : String} {before : Resource}
    (gone : state.row = disableResource settings error true before)
    (unselected : ∀ process, state.phase process ≠ .probing ∧ state.phase process ≠ .restoring) :
    GivenUp kind settings state where
  unusable := by
    rw [gone]
    cases kind with
    | apiKey | gcAccount => rfl
  exhausted := by
    rw [gone]
    exact Nat.le_refl _
  unprobed := unselected

/-- From a give-up on, with no retest tick under way that has selected the resource before, the
resource stays closed in every state exactly when no statement comes that a give-up does not
survive. -/
theorem stays_closed_iff (kind : ResourceKind) (settings : HealthSettings)
    (start final : State Process) (error : String) (before : Resource)
    (events : List (Event Process))
    (gone : start.row = disableResource settings error true before)
    (unselected : ∀ process, start.phase process ≠ .probing ∧ start.phase process ≠ .restoring)
    (execution : Schedule.run (next kind settings) start events = some final) :
    (∀ visited state, visited <+: events →
      Schedule.run (next kind settings) start visited = some state →
        ¬ Pickable kind state.row ∧ retestEligible settings state.row = false) ↔
      Schedule.Throughout (next kind settings) SparesGivenUp start events := by
  have given : GivenUp kind settings start := givenUp_of_disable gone unselected
  refine (Schedule.throughout_iff_shown (fun givenUp => givenUp.closed) ?_ ?_ given execution).symm
  · intro state event after givenUp step
    rcases givenUp.next_cases step with ⟨spares, kept⟩ | ⟨breaks, opened⟩
    · exact iff_of_true spares kept.closed
    · exact iff_of_false breaks opened
  · intro state event after givenUp step closed
    rcases givenUp.next_cases step with ⟨-, kept⟩ | ⟨-, opened⟩
    · exact kept
    · exact (opened closed).elim

/-- The settings of keys which the database is seeded with. -/
def seedSettings : HealthSettings where
  percent := 80
  window := 20
  retestMax := 20
  window_pos := by decide
  retestMax_pos := by decide

/-- A key which Steam has refused with 403. -/
def refusedKey : State Bool :=
  { row := disableResource seedSettings "steam HTTP 403" true {} }

/-- Behind the refusal an answer of an older request clears a rate limit, an attempt is noted and
the key is given up a second time. -/
theorem refusedKey_stays_closed : ∃ final,
    Schedule.run (next .apiKey seedSettings) refusedKey
      [.clearRateLimit, .giveUp true "steam HTTP 403", .update true] = some final ∧
    retestEligible seedSettings final.row = false ∧ ¬ Pickable .apiKey final.row := by
  refine ⟨_, rfl, ?_⟩
  have closed := (stays_closed_iff .apiKey seedSettings refusedKey _ "steam HTTP 403" {}
    [.clearRateLimit, .giveUp true "steam HTTP 403", .update true] rfl
    (by simp [refusedKey]) rfl).mpr (by decide)
  exact (closed _ _ (List.prefix_refl _) rfl).symm

/-- One worker has selected the key when another one gives it up; the pick then writes `active`
over the mark. -/
theorem picked_behind_give_up : ∃ given after,
    Schedule.run (next .apiKey seedSettings) ({ row := {} } : State Bool)
      [.select false 0 true, .giveUp true "steam HTTP 403", .update true] = some given ∧
    given.row = disableResource seedSettings "steam HTTP 403" true {} ∧
    Schedule.run (next .apiKey seedSettings) given [.pick false] = some after ∧
    Pickable .apiKey after.row :=
  ⟨_, _, rfl, rfl, rfl, pickable_iff.mpr rfl⟩

end Resources
end DotaCollector
