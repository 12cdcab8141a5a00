import Mathlib.Data.Fintype.Basic
import DotaCollector.Marketplace.Orders

/-!
# The final outcome of a marketplace order

Nothing stops a tick from taking up an order whose purchase is still under way: both may hear of
the delivery, import it and finish the order, one after the other. When every process which takes
the outcome into its hands finds the order pending and nobody else at it, the order is settled
once.
-/

namespace DotaCollector
namespace Marketplace

variable {Process : Type*} [DecidableEq Process]

/-! ## Who has the outcome in hand -/

/-- Inside `fulfillBoughtDelivery`, up to its final write. -/
def Phase.fulfilling : Phase → Bool
  | .delivered | .imported _ | .provisioned _ => true
  | _ => false

/-- About to write a final status. -/
def Phase.acting : Phase → Bool
  | .delivered | .imported _ | .provisioned _ | .failing _ => true
  | _ => false

/-- Possibly behind the import of the delivery, with the final write still to come. -/
def Phase.spent : Phase → Bool
  | .imported _ | .provisioned _ | .failing _ => true
  | _ => false

theorem Phase.acting_of_fulfilling {phase : Phase} (fulfilling : phase.fulfilling = true) :
    phase.acting = true := by
  cases phase with
  | delivered | imported | provisioned => rfl
  | _ => cases fulfilling

theorem Phase.acting_of_spent {phase : Phase} (spent : phase.spent = true) :
    phase.acting = true := by
  cases phase with
  | imported | provisioned | failing => rfl
  | _ => cases spent

/-- A process which takes a delivery finds the order pending and nobody else about to write its
outcome; one which gives the order up finds it not yet successful and nobody fulfilling it. -/
def Unhindered (ttlMs : Nat) (state : State Process) : Event Process → Prop
  | .learn process lesson =>
      match learn ttlMs (state.phase process) lesson with
      | some .delivered =>
          state.status = some .pending ∧ ∀ other, (state.phase other).acting = false
      | some (.failing _) =>
          state.status ≠ some .success ∧ ∀ other, (state.phase other).fulfilling = false
      | _ => True
  | _ => True

instance [Fintype Process] (ttlMs : Nat) (state : State Process) (event : Event Process) :
    Decidable (Unhindered ttlMs state event) := by
  unfold Unhindered
  split
  · split <;> infer_instance
  · infer_instance

/-- What hearing from the shop can lead to. -/
theorem learn_cases {ttlMs : Nat} {before phase : Phase} {lesson : Lesson}
    (learnt : learn ttlMs before lesson = some phase) :
    (before ≠ .idle ∧ before.acting = false) ∧
      ((phase.acting = false ∧ phase ≠ .fulfilled) ∨ phase = .delivered ∨
        ∃ message, phase = .failing message) := by
  have afterError_cases (error : PurchaseError) :
      ((afterError error).acting = false ∧ afterError error ≠ .fulfilled) ∨
        afterError error = .delivered ∨ ∃ message, afterError error = .failing message := by
    unfold afterError
    split
    · exact .inl ⟨rfl, by simp⟩
    · exact .inr (.inr ⟨_, rfl⟩)
  unfold learn at learnt
  split at learnt
  case h_1 => cases learnt; exact ⟨⟨by simp, rfl⟩, .inl ⟨rfl, by simp⟩⟩
  case h_2 => cases learnt; exact ⟨⟨by simp, rfl⟩, afterError_cases _⟩
  case h_3 => cases learnt; exact ⟨⟨by simp, rfl⟩, .inr (.inl rfl)⟩
  case h_4 => cases learnt; exact ⟨⟨by simp, rfl⟩, afterError_cases _⟩
  case h_5 =>
    refine ⟨⟨by simp, rfl⟩, ?_⟩
    split at learnt <;> cases learnt <;> split_ifs <;> simp [Phase.acting]
  case h_6 =>
    refine ⟨⟨by simp, rfl⟩, ?_⟩
    cases learnt
    split_ifs <;> simp [Phase.acting]
  case h_7 => cases learnt; exact ⟨⟨by simp, rfl⟩, .inl ⟨rfl, by simp⟩⟩
  case h_8 => cases learnt; exact ⟨⟨by simp, rfl⟩, .inr (.inl rfl)⟩
  case h_9 => cases learnt; exact ⟨⟨by simp, rfl⟩, .inr (.inr ⟨_, rfl⟩)⟩
  case h_10 =>
    refine ⟨⟨by simp, rfl⟩, ?_⟩
    cases learnt
    split_ifs <;> simp [Phase.acting]
  case h_11 => cases learnt

/-! ## The invariant -/

variable {ttlMs : Nat} {state after : State Process} {event : Event Process} {process : Process}

/-- Whoever fulfils the order is alone with it and finds it pending, nobody acts on a success, and
the counters are up only behind the phases which move them. -/
structure Orderly (state : State Process) : Prop where
  absent : state.order = none →
    (∀ process, state.phase process = .idle) ∧ state.imports = 0 ∧ state.fulfilments = 0
  alone : Processes.Excludes (fun phase => phase.fulfilling = true)
    (fun phase => phase.acting = true) state.phase
  pending : ∀ process, (state.phase process).fulfilling = true → state.status = some .pending
  unsold : ∀ process, (state.phase process).acting = true → state.status ≠ some .success
  imports_le : state.imports ≤ 1
  spent : 0 < state.imports → state.status = some .success ∨ state.status = some .failed ∨
    ∃ process, (state.phase process).spent = true
  sold : ∀ process, state.phase process = .fulfilled →
    state.status = some .success ∧ state.fulfilments = 0
  counter : Processes.Excludes (· = Phase.fulfilled) (· = Phase.fulfilled) state.phase
  fulfilments_le : state.fulfilments ≤ 1
  counted : 0 < state.fulfilments → state.status = some .success

omit [DecidableEq Process] in
theorem orderly_initial : Orderly ({} : State Process) where
  absent _ := ⟨fun _ => rfl, rfl, rfl⟩
  alone process other fulfilling := by cases fulfilling
  pending process fulfilling := by cases fulfilling
  unsold process acting := by cases acting
  imports_le := Nat.zero_le 1
  spent imported := by cases imported
  sold process fulfilled := by cases fulfilled
  counter process other fulfilled := by cases fulfilled
  fulfilments_le := Nat.zero_le 1
  counted counted := by cases counted

omit [DecidableEq Process] in
/-- Only an existing order has processes at work. -/
theorem Orderly.order_ne_none (orderly : Orderly state)
    (busy : state.phase process ≠ .idle) : state.order ≠ none :=
  fun absent => busy ((orderly.absent absent).1 process)

/-- The step of one process between phases, when the phase it enters has its conditions. -/
theorem Orderly.setPhase (orderly : Orderly state) {phase : Phase}
    (found : state.order ≠ none)
    (keeps : (state.phase process).spent = true → phase.spent = true)
    (takes : phase.fulfilling = true → state.status = some .pending ∧
      ∀ other, other ≠ process → (state.phase other).acting = false)
    (acts : phase.acting = true → state.status ≠ some .success ∧
      ∀ other, other ≠ process → (state.phase other).fulfilling = false)
    (open_ : phase ≠ .fulfilled) : Orderly (state.setPhase process phase) where
  absent gone := (found gone).elim
  alone := by
    refine orderly.alone.update ?_ ?_
    · intro fulfilling other ne acting
      rw [(takes fulfilling).2 other ne] at acting
      cases acting
    · intro acting other ne fulfilling
      rw [(acts acting).2 other ne] at fulfilling
      cases fulfilling
  pending other fulfilling := by
    rcases Processes.of_update (fun phase : Phase => phase.fulfilling = true) fulfilling with
      ⟨-, entered⟩ | ⟨-, before⟩
    · exact (takes entered).1
    · exact orderly.pending other before
  unsold other acting := by
    rcases Processes.of_update (fun phase : Phase => phase.acting = true) acting with
      ⟨-, entered⟩ | ⟨-, before⟩
    · exact (acts entered).1
    · exact orderly.unsold other before
  imports_le := orderly.imports_le
  spent imported := by
    rcases orderly.spent imported with success | failed | ⟨other, spent⟩
    · exact .inl success
    · exact .inr (.inl failed)
    · refine .inr (.inr ⟨other, ?_⟩)
      change (Function.update state.phase process phase other).spent = true
      rcases eq_or_ne other process with rfl | ne
      · rw [Function.update_self]
        exact keeps spent
      · rw [Function.update_of_ne ne]
        exact spent
  sold other fulfilled := by
    rcases Processes.of_update (· = Phase.fulfilled) fulfilled with
      ⟨-, entered⟩ | ⟨-, before⟩
    · exact (open_ entered).elim
    · exact orderly.sold other before
  counter := orderly.counter.stay (fun entered => (open_ entered).elim)
    (fun entered => (open_ entered).elim)
  fulfilments_le := orderly.fulfilments_le
  counted := orderly.counted

/-- A phase without a part in the outcome can always be entered from another such phase. -/
theorem Orderly.pass (orderly : Orderly state) {phase : Phase} (found : state.order ≠ none)
    (before : (state.phase process).acting = false) (outside : phase.acting = false)
    (open_ : phase ≠ .fulfilled) : Orderly (state.setPhase process phase) := by
  refine orderly.setPhase found ?_ ?_ ?_ open_
  · intro spent
    rw [Phase.acting_of_spent spent] at before
    cases before
  · intro fulfilling
    rw [Phase.acting_of_fulfilling fulfilling] at outside
    cases outside
  · intro acting
    rw [acting] at outside
    cases outside

omit [DecidableEq Process] in
/-- A statement which leaves the status alone. -/
theorem Orderly.write (orderly : Orderly state) {statement : MarketplaceOrder → MarketplaceOrder}
    (same : ∀ order, (statement order).status = order.status) :
    Orderly { state with order := state.order.map statement } := by
  have status : State.status { state with order := state.order.map statement } = state.status := by
    cases found : state.order with
    | none => simp [State.status, found]
    | some order => simp [State.status, found, same]
  exact
    { absent := fun gone => orderly.absent (Option.map_eq_none_iff.mp gone)
      alone := orderly.alone
      pending := fun other fulfilling => status.trans (orderly.pending other fulfilling)
      unsold := fun other acting => by
        rw [status]
        exact orderly.unsold other acting
      imports_le := orderly.imports_le
      spent := by
        rw [status]
        exact orderly.spent
      sold := by
        rw [status]
        exact orderly.sold
      counter := orderly.counter
      fulfilments_le := orderly.fulfilments_le
      counted := by
        rw [status]
        exact orderly.counted }

/-! ## The steps which count -/

theorem Orderly.buy (orderly : Orderly state) (absent : state.order = none) (createdAt : Int) :
    Orderly { state.setPhase process .purchasing with
      order := some (insertMarketplaceOrder createdAt) } := by
  obtain ⟨idle, imports, fulfilments⟩ := orderly.absent absent
  have outside (other : Process) (holds : Phase → Prop) (idles : ¬ holds .idle)
      (purchases : ¬ holds .purchasing)
      (stands : holds (Function.update state.phase process .purchasing other)) : False := by
    rcases Processes.of_update holds stands with ⟨-, entered⟩ | ⟨-, before⟩
    · exact purchases entered
    · rw [idle other] at before
      exact idles before
  exact
    { absent := fun gone => by cases gone
      alone := fun one other fulfilling =>
        (outside one (fun phase => phase.fulfilling = true) (by decide) (by decide) fulfilling).elim
      pending := fun _ _ => rfl
      unsold := fun _ _ sold => by cases sold
      imports_le := orderly.imports_le
      spent := fun imported => by
        change 0 < state.imports at imported
        omega
      sold := fun one fulfilled =>
        (outside one (· = Phase.fulfilled) (by decide) (by decide) fulfilled).elim
      counter := fun one other fulfilled =>
        (outside one (· = Phase.fulfilled) (by decide) (by decide) fulfilled).elim
      fulfilments_le := orderly.fulfilments_le
      counted := fun counted => by
        change 0 < state.fulfilments at counted
        omega }

/-- Going on with the order, from one fulfilling phase to the next or to giving it up. -/
theorem Orderly.proceed (orderly : Orderly state) {phase : Phase}
    (fulfilling : (state.phase process).fulfilling = true) (spent : phase.spent = true) :
    Orderly (state.setPhase process phase) := by
  have acting := Phase.acting_of_fulfilling fulfilling
  have busy : state.phase process ≠ .idle := by
    intro idle
    rw [idle] at fulfilling
    cases fulfilling
  refine orderly.setPhase (orderly.order_ne_none busy) (fun _ => spent) ?_ ?_ ?_
  · intro _
    refine ⟨orderly.pending process fulfilling, fun other ne => ?_⟩
    by_contra busy
    exact ne (orderly.alone process other fulfilling (by simpa using busy))
  · intro _
    refine ⟨orderly.unsold process acting, fun other ne => ?_⟩
    by_contra busy
    exact ne (orderly.alone other process (by simpa using busy) acting).symm
  · rintro rfl
    cases spent

/-- The delivery is imported by the only process which has it, before anybody was spent. -/
theorem Orderly.importAccount (orderly : Orderly state) (accountId : Nat)
    (delivered : state.phase process = .delivered) :
    Orderly { state.setPhase process (.imported accountId) with imports := state.imports + 1 } := by
  have fulfilling : (state.phase process).fulfilling = true := by rw [delivered]; rfl
  have pending := orderly.pending process fulfilling
  have unimported : state.imports = 0 := by
    by_contra imported
    rcases orderly.spent (Nat.pos_of_ne_zero imported) with success | failed | ⟨other, spent⟩
    · rw [pending] at success
      cases success
    · rw [pending] at failed
      cases failed
    · have same := orderly.alone process other fulfilling (Phase.acting_of_spent spent)
      rw [same, delivered] at spent
      cases spent
  have moved : Orderly (state.setPhase process (.imported accountId)) :=
    orderly.proceed fulfilling rfl
  exact
    { moved with
      absent := fun gone => (orderly.order_ne_none (by rw [delivered]; simp) gone).elim
      imports_le := by
        change state.imports + 1 ≤ 1
        omega
      spent := fun _ => .inr (.inr ⟨process, by
        change (Function.update state.phase process _ process).spent = true
        rw [Function.update_self]
        rfl⟩) }


theorem status_write (state : State Process) (process : Process) (phase : Phase)
    (statement : MarketplaceOrder → MarketplaceOrder) :
    (state.write process phase statement).status = state.order.map fun order =>
      (statement order).status := by
  change (state.order.map statement).map _ = _
  rw [Option.map_map]
  rfl

omit [DecidableEq Process] in
theorem exists_order_of_status {status : MarketplaceOrderStatus}
    (found : state.status = some status) : ∃ order, state.order = some order := by
  obtain ⟨order, found, -⟩ := Option.map_eq_some_iff.mp found
  exact ⟨order, found⟩

/-- The first final write of a success: the order was pending and nobody else acts on it. -/
theorem Orderly.succeed (orderly : Orderly state) {accountId : Nat}
    (provisioned : state.phase process = .provisioned accountId) :
    Orderly (state.write process .fulfilled
      (finishMarketplaceOrder .success (some accountId) none)) := by
  have fulfilling : (state.phase process).fulfilling = true := by rw [provisioned]; rfl
  have pending := orderly.pending process fulfilling
  obtain ⟨order, found⟩ := exists_order_of_status pending
  have success : (state.write process .fulfilled
      (finishMarketplaceOrder .success (some accountId) none)).status = some .success := by
    rw [status_write, found]
    rfl
  have uncounted : state.fulfilments = 0 := by
    by_contra counted
    rw [orderly.counted (Nat.pos_of_ne_zero counted)] at pending
    cases pending
  -- nobody else is in a phase which speaks of the outcome
  have nobody (other : Process)
      (acting : (Function.update state.phase process .fulfilled other).acting = true) : False := by
    rcases Processes.of_update (fun phase : Phase => phase.acting = true) acting with
      ⟨-, ⟨⟩⟩ | ⟨ne, before⟩
    exact ne (orderly.alone process other fulfilling before)
  have unfulfilled (other : Process) : state.phase other ≠ .fulfilled := by
    intro fulfilled
    rw [(orderly.sold other fulfilled).1] at pending
    cases pending
  exact
    { absent := fun gone => by
        rw [State.status, gone] at success
        cases success
      alone := fun one other one_fulfilling =>
        (nobody one (Phase.acting_of_fulfilling one_fulfilling)).elim
      pending := fun other other_fulfilling =>
        (nobody other (Phase.acting_of_fulfilling other_fulfilling)).elim
      unsold := fun other acting => (nobody other acting).elim
      imports_le := orderly.imports_le
      spent := fun _ => .inl success
      sold := fun _ _ => ⟨success, uncounted⟩
      counter := orderly.counter.update (fun _ other _ => unfulfilled other)
        (fun _ other _ => unfulfilled other)
      fulfilments_le := orderly.fulfilments_le
      counted := fun _ => success }

/-- A failure is written on an order which is not a success, and which nobody fulfils. -/
theorem Orderly.fail (orderly : Orderly state) {message : Text}
    (failing : state.phase process = .failing message) :
    Orderly (state.write process .idle
      (finishMarketplaceOrder .failed none (some message))) := by
  have acting : (state.phase process).acting = true := by rw [failing]; rfl
  have unsold := orderly.unsold process acting
  have busy : state.phase process ≠ .idle := by
    rw [failing]
    simp
  obtain ⟨order, found⟩ := Option.ne_none_iff_exists'.mp (orderly.order_ne_none busy)
  have failed : (state.write process .idle
      (finishMarketplaceOrder .failed none (some message))).status = some .failed := by
    rw [status_write, found]
    rfl
  have nobody (other : Process) (fulfilling : (state.phase other).fulfilling = true) : False := by
    have same := orderly.alone other process fulfilling acting
    rw [← same, failing] at fulfilling
    cases fulfilling
  have unfulfilled (other : Process)
      (fulfilled : Function.update state.phase process .idle other = .fulfilled) : False := by
    rcases Processes.of_update (· = Phase.fulfilled) fulfilled with ⟨-, ⟨⟩⟩ | ⟨-, before⟩
    exact unsold (orderly.sold other before).1
  exact
    { absent := fun gone => by
        rw [State.status, gone] at failed
        cases failed
      alone := orderly.alone.stay (by simp [Phase.fulfilling]) (by simp [Phase.acting])
      pending := fun other fulfilling => by
        rcases Processes.of_update (fun phase : Phase => phase.fulfilling = true) fulfilling with
          ⟨-, ⟨⟩⟩ | ⟨-, before⟩
        exact (nobody other before).elim
      unsold := fun _ _ success => by
        rw [failed] at success
        cases success
      imports_le := orderly.imports_le
      spent := fun _ => .inr (.inl failed)
      sold := fun other fulfilled => (unfulfilled other fulfilled).elim
      counter := fun other _ fulfilled => (unfulfilled other fulfilled).elim
      fulfilments_le := orderly.fulfilments_le
      counted := fun counted => (unsold (orderly.counted counted)).elim }

theorem Orderly.observe (orderly : Orderly state) (fulfilled : state.phase process = .fulfilled) :
    Orderly { state.setPhase process .idle with fulfilments := state.fulfilments + 1 } := by
  obtain ⟨success, uncounted⟩ := orderly.sold process fulfilled
  have found : state.order ≠ none := orderly.order_ne_none (by rw [fulfilled]; simp)
  have moved : Orderly (state.setPhase process .idle) :=
    orderly.pass found (by rw [fulfilled]; rfl) rfl (by simp)
  exact
    { moved with
      absent := fun gone => (found gone).elim
      sold := fun other others => by
        rcases Processes.of_update (· = Phase.fulfilled) others with ⟨-, ⟨⟩⟩ | ⟨ne, before⟩
        exact (ne (orderly.counter process other fulfilled before)).elim
      fulfilments_le := by
        change state.fulfilments + 1 ≤ 1
        omega
      counted := fun _ => success }

theorem Orderly.learn (orderly : Orderly state) {lesson : Lesson} {phase : Phase}
    (learnt : learn ttlMs (state.phase process) lesson = some phase)
    (unhindered : Unhindered ttlMs state (.learn process lesson)) :
    Orderly (state.setPhase process phase) := by
  obtain ⟨⟨busy, outside⟩, quiet | rfl | ⟨message, rfl⟩⟩ := learn_cases learnt
  · exact orderly.pass (orderly.order_ne_none busy) outside quiet.1 quiet.2
  · simp only [Unhindered, learnt] at unhindered
    refine orderly.setPhase (orderly.order_ne_none busy) ?_ (fun _ => ?_) (fun _ => ?_) (by simp)
    · intro spent
      rw [Phase.acting_of_spent spent] at outside
      cases outside
    · exact ⟨unhindered.1, fun other _ => unhindered.2 other⟩
    · refine ⟨by rw [unhindered.1]; simp, fun other _ => ?_⟩
      by_contra fulfilling
      have acting := Phase.acting_of_fulfilling (by simpa using fulfilling)
      rw [unhindered.2 other] at acting
      cases acting
  · simp only [Unhindered, learnt] at unhindered
    refine orderly.setPhase (orderly.order_ne_none busy) (fun _ => rfl) ?_ (fun _ => ?_) (by simp)
    · intro fulfilling
      cases fulfilling
    · exact ⟨unhindered.1, fun other _ => unhindered.2 other⟩

theorem Orderly.next (orderly : Orderly state) (unhindered : Unhindered ttlMs state event)
    (step : Marketplace.next ttlMs state event = some after) : Orderly after := by
  cases moves_of_next step with
  | buy idle absent => exact orderly.buy absent _
  | learn learnt => exact orderly.learn learnt unhindered
  | storeId started =>
      have found := orderly.order_ne_none (by rw [started]; simp)
      exact (orderly.pass found (by rw [started]; rfl) rfl (by simp)).write fun _ => rfl
  | nameOrder naming =>
      have found := orderly.order_ne_none (by rw [naming]; simp)
      exact (orderly.pass found (by rw [naming]; rfl) rfl (by simp)).write fun _ => rfl
  | listPending idle found pending =>
      exact orderly.pass (by rw [found]; simp) (by rw [idle]; rfl) rfl (by simp)
  | importAccount delivered => exact orderly.importAccount _ delivered
  | provision imported => exact orderly.proceed (by rw [imported]; rfl) rfl
  | breakOff fulfilling =>
      rcases fulfilling with delivered | ⟨accountId, imported⟩
      · exact orderly.proceed (by rw [delivered]; rfl) rfl
      · exact orderly.proceed (by rw [imported]; rfl) rfl
  | succeed provisioned => exact orderly.succeed provisioned
  | fail failing => exact orderly.fail failing
  | markPending delaying =>
      have found := orderly.order_ne_none (by rw [delaying]; simp)
      exact (orderly.pass found (by rw [delaying]; rfl) rfl (by simp)).write fun _ => rfl
  | observe fulfilled => exact orderly.observe fulfilled

/-! ## One final outcome -/

/-- A final status survives every step of an orderly state. -/
theorem Orderly.status_next (orderly : Orderly state) {status : MarketplaceOrderStatus}
    (final : status ≠ .pending) (reached : state.status = some status)
    (step : Marketplace.next ttlMs state event = some after) : after.status = some status := by
  cases moves_of_next step with
  | buy idle absent =>
      rw [State.status, absent] at reached
      cases reached
  | learn | listPending | importAccount | provision | breakOff | observe => exact reached
  | storeId | nameOrder | markPending =>
      rw [status_write]
      exact reached
  | @succeed process accountId provisioned =>
      have pending := orderly.pending process (by rw [provisioned]; rfl)
      rw [reached] at pending
      exact (final (Option.some.inj pending)).elim
  | @fail process message failing =>
      have unsold := orderly.unsold process (by rw [failing]; rfl)
      obtain ⟨order, found⟩ := exists_order_of_status reached
      rw [status_write, found]
      cases status with
      | pending => exact (final rfl).elim
      | success => exact (unsold reached).elim
      | failed => rfl

/-- An orderly state whose order has the status. -/
def Finished (status : MarketplaceOrderStatus) (state : State Process) : Prop :=
  Orderly state ∧ state.status = some status

theorem Finished.next {status : MarketplaceOrderStatus} (finished : Finished status state)
    (final : status ≠ .pending) (unhindered : Unhindered ttlMs state event)
    (step : Marketplace.next ttlMs state event = some after) : Finished status after :=
  ⟨finished.1.next unhindered step, finished.1.status_next final finished.2 step⟩

/-- In a run in which every process that takes the outcome in hand is unhindered, a final status
stays, and the delivery is imported and counted at most once. -/
theorem settled_once (ttlMs : Nat) (front back : List (Event Process)) (middle final : State Process)
    (unhindered : Schedule.Throughout (next ttlMs) (Unhindered ttlMs) {} (front ++ back))
    (earlier : Schedule.run (next ttlMs) {} front = some middle)
    (later : Schedule.run (next ttlMs) middle back = some final) :
    (∀ status, status ≠ .pending → middle.status = some status → final.status = some status) ∧
      final.imports ≤ 1 ∧ final.fulfilments ≤ 1 := by
  have whole : Schedule.run (next ttlMs) {} (front ++ back) = some final :=
    Schedule.run_append_eq_some.mpr ⟨middle, earlier, later⟩
  have orderly : Orderly final :=
    unhindered.run_invariant (fun held guard step => held.next guard step) orderly_initial whole
  refine ⟨fun status done reached => ?_, orderly.imports_le, orderly.fulfilments_le⟩
  have before : Orderly middle :=
    unhindered.front.run_invariant (fun held guard step => held.next guard step)
      orderly_initial earlier
  have kept : Finished status final :=
    (unhindered.back earlier).run_invariant (fun held guard step => held.next done guard step)
      ⟨before, reached⟩ later
  exact kept.2

/-- A purchase which runs into its timeout. -/
def timedOutPurchase : List (Event Bool) :=
  [.buy false 0, .learn false (.start (.ok ['7'])), .setExternalId false,
    .learn false (.delivery (.error (.darkShopping 408 []))), .markPending false]

/-- A tick which finds the delivery ready. -/
def settlingTick : List (Event Bool) :=
  [.listPending true 60000, .learn true .resolve, .learn true (.configured true),
    .learn true (.peek (some .ready)), .importAccount true 5, .provision true, .finish true,
    .observe true]

/-- The tick comes after the purchase has left the order pending. -/
theorem settled_once_after_timeout : ∃ middle final,
    Schedule.run (next 3600000) ({} : State Bool) (timedOutPurchase ++ settlingTick) = some middle ∧
    Schedule.run (next 3600000) middle [.listPending false 120000] = none ∧
    Schedule.run (next 3600000) middle [] = some final ∧
    middle.status = some .success ∧ final.status = some .success ∧
    final.imports = 1 ∧ final.fulfilments = 1 := by
  refine ⟨_, _, rfl, rfl, rfl, rfl, ?_, ?_⟩
  · exact (settled_once 3600000 (timedOutPurchase ++ settlingTick) [] _ _ (by decide) rfl rfl).1
      .success (by decide) rfl
  · decide

/-- A tick hears of the delivery while the purchase still waits for it: both import it, the tick
writes a success, and the purchase, which fails behind its import, writes a failure over it. -/
theorem success_overwritten : ∃ middle final,
    Schedule.run (next 3600000) ({} : State Bool)
      [.buy false 0, .learn false (.start (.ok ['7'])), .setExternalId false,
        .listPending true 60000, .learn true .resolve, .learn true (.configured true),
        .learn true (.peek (some .ready)), .learn false (.delivery (.ok ())),
        .importAccount true 5, .provision true, .finish true, .observe true] = some middle ∧
    Schedule.run (next 3600000) middle
      [.importAccount false 5, .breakOff false [], .finish false] = some final ∧
    middle.status = some .success ∧ final.status = some .failed ∧ final.imports = 2 :=
  ⟨_, _, rfl, rfl, rfl, rfl, rfl⟩

end Marketplace
end DotaCollector
