import DotaCollector.Library.Schedule
import DotaCollector.Resources.AttemptWindow

/-!
# The rest of a rate-limited account

A rate limit of a GC account writes a status and the end of a rest. `listGcAccounts` and
`countReadyGcAccounts` ask for both: a free status, and a rest which is over. The passing of the
rest changes no status, and where the key queries take a key whose status is still
`rate_limited`, the account queries do not.
-/

namespace DotaCollector
namespace Resources
namespace AccountRest

open Attempts (Input recordResourceAttempt)

/-- The columns of `steam_accounts` which no step below writes, and whether a key of
`steam_api_keys` belongs to the account. -/
structure Account where
  password : String
  sharedSecret : Option String := none
  hasApiKey : Bool := false

/-- `shared_secret IS NULL OR shared_secret = ''`. -/
def Account.noSharedSecret (account : Account) : Bool := account.sharedSecret.all (· = "")

/-- The `WHERE` of `listGcAccounts`. -/
def listGcAccounts (now : Nat) (account : Account) (row : Resource) : Bool :=
  pickable .gcAccount now row && account.password ≠ "" && account.noSharedSecret

/-- The `WHERE` of `countReadyGcAccounts`. -/
def countReadyGcAccounts (now : Nat) (account : Account) (row : Resource) : Bool :=
  pickable .gcAccount now row && account.noSharedSecret && !account.hasApiKey

/-- The database and the clock, in milliseconds. -/
structure State where
  health : Attempts.State
  now : Nat := 0

inductive Event where
  | markAccountError (accountId : Int) (error : String) (disable : Bool)
      (rateLimitMs : Option Nat)
  | markAccountLogin (accountId : Int)
  | recordResourceAttempt (input : Input)
  /-- Time passes. -/
  | pass (ms : Nat)

namespace State

/-- The row of an account. -/
def account (state : State) (accountId : Int) : Option Resource :=
  state.health.resources (.gcAccount, accountId)

/-- `UPDATE steam_accounts SET … WHERE id = …`. -/
def updateAccount (state : State) (accountId : Int) (set : Resource → Resource) : State :=
  { state with
    health := { state.health with
      resources := state.health.resources.update (.gcAccount, accountId) set } }

end State

def next (settings : Attempts.ResourceKind → HealthSettings) (state : State) :
    Event → Option State
  | .markAccountError accountId error disable rateLimitMs =>
      some (state.updateAccount accountId
        (markAccountError error disable rateLimitMs state.now))
  | .markAccountLogin accountId => some (state.updateAccount accountId markAccountLogin)
  | .recordResourceAttempt input =>
      some { state with health := (recordResourceAttempt settings state.health input).2 }
  | .pass ms => some { state with now := state.now + ms }

/-! ## Properties -/

/-- An account whose rest is over and which only its status could keep from being selected. -/
structure Free (now : Nat) (account : Account) (row : Resource) : Prop where
  enabled : row.status ≠ .disabled
  rested : row.rateLimitedUntil.all (· < now) = true
  password : account.password ≠ ""
  noSharedSecret : account.noSharedSecret = true
  noApiKey : account.hasApiKey = false

/-- Every account which is free satisfies both queries. -/
def ComesBack (accounts : Int → Account) (state : State) : Prop :=
  ∀ accountId row, state.account accountId = some row →
    Free state.now (accounts accountId) row →
      listGcAccounts state.now (accounts accountId) row = true ∧
        countReadyGcAccounts state.now (accounts accountId) row = true

/-- The account has a password, no shared secret and no key. -/
def Account.Plain (account : Account) : Prop :=
  account.password ≠ "" ∧ account.noSharedSecret = true ∧ account.hasApiKey = false

/-- The status is `rate_limited`, and the rest of the mark which has written it ends at the
moment. -/
def Limited (row : Resource) (until_ : Nat) : Prop :=
  row.status = .rateLimited ∧ row.rateLimitedUntil = some until_

/-! ## What the steps of a run say of a rest -/

/-- The milliseconds which pass in a step. -/
def Event.ms : Event → Nat
  | .pass ms => ms
  | _ => 0

/-- The milliseconds which pass in some steps. -/
def elapsed (events : List Event) : Nat := (events.map Event.ms).sum

/-- The step writes the status of the account: any mark of an error, a login, or an attempt which
disables it. -/
def WritesStatus (settings : Attempts.ResourceKind → HealthSettings) (accountId : Int)
    (state : State) : Event → Prop
  | .markAccountError marked _ _ _ => marked = accountId
  | .markAccountLogin marked => marked = accountId
  | .recordResourceAttempt input => input.resource = (.gcAccount, accountId) ∧
      (recordResourceAttempt settings state.health input).1 = true
  | .pass _ => False

/-- With these steps done a rest of the account begins, which ends at the moment: the last of them
marks a rate limit, or none is done and the account rests from the start. -/
def RestBegins (start : State) (accountId : Int) (front : List Event) (until_ : Nat) : Prop :=
  ∃ row, start.account accountId = some row ∧
    ((front = [] ∧ Limited row until_) ∨
      ∃ earlier error ms, front = earlier ++ [.markAccountError accountId error false (some ms)] ∧
        ms ≠ 0 ∧ until_ = start.now + elapsed earlier + ms)

/-- Whenever a rest of a plain account is over, some step since its begin has written the status
of the account. -/
def RestsLifted (settings : Attempts.ResourceKind → HealthSettings) (accounts : Int → Account)
    (start : State) (events : List Event) : Prop :=
  ∀ accountId front back until_ middle, (accounts accountId).Plain →
    front ++ back <+: events → RestBegins start accountId front until_ →
    Schedule.run (next settings) start front = some middle →
    until_ < start.now + elapsed (front ++ back) →
    ¬ Schedule.Throughout (next settings)
      (fun state event => ¬ WritesStatus settings accountId state event) middle back

/-! ## One state -/

variable {settings : Attempts.ResourceKind → HealthSettings} {accounts : Int → Account}
  {state after : State} {event : Event} {row : Resource} {now : Nat}

theorem not_any_le_iff (until_ : Option Nat) :
    until_.any (now ≤ ·) = false ↔ until_.all (· < now) = true := by
  cases until_ <;> simp

/-- A free account is selected exactly when its status is not that of a rate limit. -/
theorem Free.selected_iff {account : Account} (free : Free now account row) :
    (listGcAccounts now account row = true ∧ countReadyGcAccounts now account row = true) ↔
      row.status ≠ .rateLimited := by
  obtain ⟨enabled, rested, password, noSharedSecret, noApiKey⟩ := free
  simp only [listGcAccounts, countReadyGcAccounts, pickable, rested, noSharedSecret, noApiKey]
  cases status : row.status with
  | disabled => exact (enabled status).elim
  | ready | active | rateLimited => simp [usable, password]

/-- A rest which is over is not one which is yet to end. -/
theorem comesBack_iff : ComesBack accounts state ↔
    ∀ accountId row, state.account accountId = some row → (accounts accountId).Plain →
      row.status = .rateLimited → row.rateLimitedUntil.any (state.now ≤ ·) = true := by
  constructor
  · intro comesBack accountId row found plain status
    by_contra passed
    rw [Bool.not_eq_true, not_any_le_iff] at passed
    have free : Free state.now (accounts accountId) row :=
      ⟨by simp [status], passed, plain.1, plain.2.1, plain.2.2⟩
    exact free.selected_iff.mp (comesBack accountId row found free) status
  · intro resting accountId row found free
    refine free.selected_iff.mpr fun status => ?_
    have later := resting accountId row found
      ⟨free.password, free.noSharedSecret, free.noApiKey⟩ status
    have rested := (not_any_le_iff _).mpr free.rested
    rw [later] at rested
    cases rested

/-! ## One step -/

theorem isSome_next (settings : Attempts.ResourceKind → HealthSettings) (state : State)
    (event : Event) : (next settings state event).isSome = true := by
  cases event <;> rfl

theorem now_next (step : next settings state event = some after) :
    after.now = state.now + event.ms := by
  cases event <;> cases step <;> rfl

/-- What a step makes of the row of an account. -/
def rowAfter (settings : Attempts.ResourceKind → HealthSettings) (accountId : Int)
    (state : State) : Event → Resource → Resource
  | .markAccountError marked error disable rateLimitMs =>
      if accountId = marked then markAccountError error disable rateLimitMs state.now else id
  | .markAccountLogin marked => if accountId = marked then markAccountLogin else id
  | .recordResourceAttempt input =>
      if (.gcAccount, accountId) = input.resource then
        Attempts.writes (settings input.resource.1) input
          (recordResourceAttempt settings state.health input).1
      else id
  | .pass _ => id

theorem account_update (resources : Table Attempts.ResourceKey Resource) (accountId : Int)
    (key : Attempts.ResourceKey) (set : Resource → Resource) :
    resources.update key set (.gcAccount, accountId) =
      (resources (.gcAccount, accountId)).map
        (if (.gcAccount, accountId) = key then set else id) := by
  split_ifs with same
  · subst same
    exact Table.update_self ..
  · rw [Table.update_of_ne same, Option.map_id_fun, id]

theorem account_next (step : next settings state event = some after) (accountId : Int) :
    after.account accountId =
      (state.account accountId).map (rowAfter settings accountId state event) := by
  cases event with
  | markAccountError marked error disable rateLimitMs =>
      cases step
      simp only [State.account, State.updateAccount, account_update, rowAfter, Prod.mk.injEq,
        true_and]
  | markAccountLogin marked =>
      cases step
      simp only [State.account, State.updateAccount, account_update, rowAfter, Prod.mk.injEq,
        true_and]
  | recordResourceAttempt input =>
      cases step
      simp only [State.account, Attempts.resources_recordResourceAttempt, account_update, rowAfter]
  | pass ms =>
      cases step
      exact (Option.map_id_fun ▸ rfl : state.account accountId =
        (state.account accountId).map id)

/-- A step which does not write the status leaves the status and the end of the rest. -/
theorem rowAfter_of_not_writes {accountId : Int}
    (untouched : ¬ WritesStatus settings accountId state event) (row : Resource) :
    (rowAfter settings accountId state event row).status = row.status ∧
      (rowAfter settings accountId state event row).rateLimitedUntil = row.rateLimitedUntil := by
  cases event with
  | markAccountError marked error disable rateLimitMs =>
      simp only [rowAfter, if_neg (Ne.symm untouched)]
      exact ⟨rfl, rfl⟩
  | markAccountLogin marked =>
      simp only [rowAfter, if_neg (Ne.symm untouched)]
      exact ⟨rfl, rfl⟩
  | recordResourceAttempt input =>
      simp only [rowAfter]
      split_ifs with about
      · have kept : (recordResourceAttempt settings state.health input).1 = false :=
          Bool.eq_false_iff.mpr fun disabled => untouched ⟨about.symm, disabled⟩
        simp only [kept, Attempts.writes, Bool.false_eq_true, if_false]
        split_ifs <;> exact ⟨rfl, rfl⟩
      · exact ⟨rfl, rfl⟩
  | pass ms => exact ⟨rfl, rfl⟩

/-- Of the steps which write the status only the mark of a rate limit makes it `rate_limited`. -/
theorem limited_of_writes {accountId : Int} (writes : WritesStatus settings accountId state event)
    {row : Resource}
    (status : (rowAfter settings accountId state event row).status = .rateLimited) :
    ∃ error ms, event = .markAccountError accountId error false (some ms) ∧ ms ≠ 0 ∧
      (rowAfter settings accountId state event row).rateLimitedUntil = some (state.now + ms) := by
  cases event with
  | markAccountError marked error disable rateLimitMs =>
      obtain rfl : marked = accountId := writes
      simp only [rowAfter, if_true, markAccountError] at status ⊢
      cases disable with
      | true => cases status
      | false =>
          cases rateLimitMs with
          | none => cases status
          | some ms =>
              refine ⟨error, ms, rfl, ?_, rfl⟩
              rintro rfl
              cases status
  | markAccountLogin marked =>
      obtain rfl : marked = accountId := writes
      simp [rowAfter, markAccountLogin] at status
  | recordResourceAttempt input =>
      obtain ⟨about, disables⟩ := writes
      simp [rowAfter, about, disables, Attempts.status_writes] at status
  | pass ms => cases writes

/-! ## Runs -/

theorem now_run {start final : State} {events : List Event}
    (execution : Schedule.run (next settings) start events = some final) :
    final.now = start.now + elapsed events := by
  induction events generalizing start with
  | nil =>
      cases execution
      rfl
  | cons event events ih =>
      obtain ⟨after, step, rest⟩ := Schedule.run_cons_eq_some.mp execution
      rw [ih rest, now_next step, Nat.add_assoc]
      rfl

/-- An account which no step writes keeps its status and its rest. -/
theorem limited_of_untouched {start final : State} {accountId : Int} {until_ : Nat}
    {events : List Event}
    (untouched : Schedule.Throughout (next settings)
      (fun state event => ¬ WritesStatus settings accountId state event) start events)
    (limited : ∃ row, start.account accountId = some row ∧ Limited row until_)
    (execution : Schedule.run (next settings) start events = some final) :
    ∃ row, final.account accountId = some row ∧ Limited row until_ := by
  let inv : State → Prop := fun state =>
    ∃ row, state.account accountId = some row ∧ Limited row until_
  have kept : ∀ {state event after}, inv state →
      ¬ WritesStatus settings accountId state event → next settings state event = some after →
      inv after := by
    rintro state event after ⟨row, found, status, rest⟩ quiet step
    obtain ⟨sameStatus, sameRest⟩ := rowAfter_of_not_writes quiet row
    refine ⟨_, (account_next step accountId).trans (congrArg _ found), ?_, ?_⟩
    · exact sameStatus.trans status
    · exact sameRest.trans rest
  exact untouched.run_invariant kept limited execution

/-- An account is there throughout a run, or never. -/
theorem isSome_account_run {start final : State} {events : List Event}
    (execution : Schedule.run (next settings) start events = some final) (accountId : Int) :
    (final.account accountId).isSome = (start.account accountId).isSome := by
  induction events generalizing start with
  | nil =>
      cases execution
      rfl
  | cons event events ih =>
      obtain ⟨after, step, rest⟩ := Schedule.run_cons_eq_some.mp execution
      rw [ih rest, account_next step accountId, Option.isSome_map]

/-- Where a rest begins, the account is limited until its end. -/
theorem RestBegins.limited {start middle : State} {accountId : Int} {front : List Event}
    {until_ : Nat} (begins : RestBegins start accountId front until_)
    (execution : Schedule.run (next settings) start front = some middle) :
    ∃ row, middle.account accountId = some row ∧ Limited row until_ := by
  obtain ⟨row, found, ⟨rfl, limited⟩ | ⟨earlier, error, ms, rfl, positive, rfl⟩⟩ := begins
  · cases execution
    exact ⟨row, found, limited⟩
  · obtain ⟨before, reached, step⟩ := Schedule.run_snoc_eq_some.mp execution
    have present := isSome_account_run reached accountId
    rw [found] at present
    obtain ⟨row, here⟩ := Option.isSome_iff_exists.mp present
    have marked := account_next step accountId
    rw [here, Option.map_some, rowAfter, if_pos rfl] at marked
    refine ⟨_, marked, ?_, ?_⟩
    · simp [markAccountError, positive]
    · simp [markAccountError, now_run reached]

/-- A limited account is in a rest of the run, and no step since its begin has written its
status. -/
theorem exists_restBegins {start final : State} {accountId : Int} {events : List Event}
    {row : Resource}
    (starts : ∀ row, start.account accountId = some row → row.status = .rateLimited →
      row.rateLimitedUntil ≠ none)
    (execution : Schedule.run (next settings) start events = some final)
    (found : final.account accountId = some row) (status : row.status = .rateLimited) :
    ∃ front back until_ middle, events = front ++ back ∧ row.rateLimitedUntil = some until_ ∧
      RestBegins start accountId front until_ ∧
      Schedule.run (next settings) start front = some middle ∧
      Schedule.Throughout (next settings)
        (fun state event => ¬ WritesStatus settings accountId state event) middle back := by
  induction events using List.reverseRecOn generalizing final row with
  | nil =>
      cases execution
      obtain ⟨until_, rest⟩ := Option.ne_none_iff_exists'.mp (starts row found status)
      exact ⟨[], [], until_, start, rfl, rest, ⟨row, found, .inl ⟨rfl, status, rest⟩⟩, rfl, trivial⟩
  | append_singleton events event ih =>
      obtain ⟨before, reached, step⟩ := Schedule.run_snoc_eq_some.mp execution
      have moved := account_next step accountId
      rw [found] at moved
      obtain ⟨earlier, present, rfl⟩ := Option.map_eq_some_iff.mp moved.symm
      by_cases writes : WritesStatus settings accountId before event
      · -- the last step marks the rate limit, so its rest begins here
        obtain ⟨error, ms, rfl, positive, rest⟩ := limited_of_writes writes status
        rw [now_run reached] at rest
        have there := isSome_account_run reached accountId
        rw [present] at there
        obtain ⟨first, here⟩ := Option.isSome_iff_exists.mp there.symm
        exact ⟨events ++ [_], [], _, final, (List.append_nil _).symm, rest,
          ⟨first, here, .inr ⟨events, error, ms, rfl, positive, rfl⟩⟩, execution, trivial⟩
      · obtain ⟨sameStatus, sameRest⟩ := rowAfter_of_not_writes writes earlier
        obtain ⟨front, back, until_, middle, rfl, rest, begins, front_run, untouched⟩ :=
          ih reached present (sameStatus.symm.trans status)
        refine ⟨front, back ++ [event], until_, middle, List.append_assoc .., sameRest.trans rest,
          begins, front_run, ?_⟩
        obtain ⟨same, front_run', back_run⟩ := Schedule.run_append_eq_some.mp reached
        obtain rfl := Option.some.inj (front_run.symm.trans front_run')
        exact untouched.snoc back_run writes

/-! ## Every sequence of steps -/

/-- From accounts whose rests are not over, in every state reached each free account satisfies
both queries exactly when behind the end of every rest, whether a mark of the run begins it or the
start, some step since has written the status of the account. -/
theorem comes_back_iff (settings : Attempts.ResourceKind → HealthSettings)
    (accounts : Int → Account) (start : State) (events : List Event)
    (resting : ∀ accountId row, start.account accountId = some row →
      row.status = .rateLimited → row.rateLimitedUntil.any (start.now ≤ ·) = true) :
    (∀ visited state, visited <+: events →
      Schedule.run (next settings) start visited = some state → ComesBack accounts state) ↔
      RestsLifted settings accounts start events := by
  constructor
  · intro comesBack accountId front back until_ middle plain within begins front_run past untouched
    obtain ⟨state, back_run⟩ := Schedule.exists_run (isSome_next settings) middle back
    have execution := Schedule.run_append_eq_some.mpr ⟨middle, front_run, back_run⟩
    obtain ⟨row, found, status, rest⟩ :=
      limited_of_untouched untouched (begins.limited front_run) back_run
    have later := comesBack_iff.mp (comesBack _ state within execution) accountId row found plain
      status
    rw [rest, Option.any_some, decide_eq_true_eq, now_run execution] at later
    omega
  · intro lifted visited state within execution
    refine comesBack_iff.mpr fun accountId row found plain status => ?_
    have starts : ∀ row, start.account accountId = some row → row.status = .rateLimited →
        row.rateLimitedUntil ≠ none := by
      intro row found status absent
      have rest := resting accountId row found status
      rw [absent] at rest
      cases rest
    obtain ⟨front, back, until_, middle, rfl, rest, begins, front_run, untouched⟩ :=
      exists_restBegins starts execution found status
    rw [rest, Option.any_some, decide_eq_true_eq, now_run execution]
    by_contra past
    exact lifted accountId front back until_ middle plain within begins front_run
      (Nat.lt_of_not_le past) untouched

/-- An account without a key and without a shared secret. -/
def plainAccount : Account where
  password := "hunter2"

/-- Account 1, and no other resource. -/
def onlyAccount (row : Resource) (now : Nat) : State where
  health := { resources := fun key => if key = (.gcAccount, 1) then some row else none }
  now

theorem ready_onlyAccount {accountId : Int}
    (found : (onlyAccount {} 0).account accountId = some row) :
    row = {} := by
  simp only [State.account, onlyAccount] at found
  split_ifs at found
  exact (Option.some.inj found).symm

/-- A rate limit of one second, a login within it, and two seconds. -/
theorem comes_back_behind_login : ∃ final,
    Schedule.run (next fun _ => Attempts.shortWindow) (onlyAccount {} 0)
      [.markAccountError 1 "RateLimitExceeded" false (some 1000), .markAccountLogin 1,
        .pass 2000] = some final ∧
    ComesBack (fun _ => plainAccount) final := by
  refine ⟨_, rfl, (comes_back_iff (fun _ => Attempts.shortWindow) (fun _ => plainAccount)
    (onlyAccount {} 0) [.markAccountError 1 "RateLimitExceeded" false (some 1000),
      .markAccountLogin 1, .pass 2000] ?_).mpr ?_ _ _ (List.prefix_refl _) rfl⟩
  · intro accountId row found status
    rw [ready_onlyAccount found] at status
    cases status
  · intro accountId front back until_ middle plain within begins front_run past untouched
    obtain ⟨row, found, ⟨rfl, limited⟩ | ⟨earlier, error, ms, rfl, positive, rfl⟩⟩ := begins
    · rw [Limited, ready_onlyAccount found] at limited
      cases limited.1
    · -- the only mark is the first step, and the login is the next one
      rcases earlier with _ | ⟨first, earlier⟩
      · rcases back with _ | ⟨second, back⟩
        · simp [elapsed, Event.ms] at past
        · simp only [List.nil_append, List.cons_append, List.cons_prefix_cons] at within
          obtain ⟨mark, rfl, -⟩ := within
          cases mark
          exact untouched.1 rfl
      · simp [List.prefix_cons_iff, List.append_eq_cons_iff, List.append_eq_nil_iff] at within

/-- A rate limit of one second, and two seconds without any other mark. -/
theorem rate_limit_stays : ∃ final,
    Schedule.run (next fun _ => Attempts.shortWindow) (onlyAccount {} 0)
      [.markAccountError 1 "RateLimitExceeded" false (some 1000), .pass 2000] = some final ∧
    ¬ ComesBack (fun _ => plainAccount) final := by
  refine ⟨_, rfl, fun comesBack => ?_⟩
  have selected := comesBack 1 _ rfl ⟨by decide, by decide, by decide, rfl, rfl⟩
  revert selected
  decide

end AccountRest
end Resources
end DotaCollector
