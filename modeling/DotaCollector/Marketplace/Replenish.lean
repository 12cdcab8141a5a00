import DotaCollector.Marketplace.Orders
import DotaCollector.Resources.Health

/-!
# Replenishing accounts

A pass counts what is ready and then, in a second statement, what is on order, and buys what is
missing of each kind. The accounts and the orders go on changing while it does.
-/

namespace DotaCollector
namespace Marketplace
namespace Replenish

open DotaCollector.Resources (ResourceStatus)

inductive AccountPurchaseKind where
  | apiKey
  | gc
  deriving DecidableEq, Repr

/-! ## What is counted -/

structure SteamAccount where
  id : Nat
  status : ResourceStatus := .ready
  rateLimitedUntil : Option Int := none
  sharedSecret : Option Text := none

structure SteamApiKey where
  accountId : Nat
  status : ResourceStatus := .ready
  rateLimitedUntil : Option Int := none

/-- The tables of the resources, and the time. -/
structure Resources where
  now : Int := 0
  accounts : List SteamAccount := []
  keys : List SteamApiKey := []

def rested (now : Int) (rateLimitedUntil : Option Int) : Bool :=
  rateLimitedUntil.all fun time => time < now

def SteamAccount.usable (account : SteamAccount) : Bool :=
  account.status = .ready || account.status = .active

def SteamApiKey.usable (now : Int) (key : SteamApiKey) : Bool :=
  (key.status = .ready || key.status = .active || key.status = .rateLimited) &&
    rested now key.rateLimitedUntil

/-- The join has a row for each pair. -/
def countReadyApiKeys (resources : Resources) : Nat :=
  (resources.keys.filter (SteamApiKey.usable resources.now)).flatMap (fun key =>
    resources.accounts.filter fun account => account.id = key.accountId && account.usable)
    |>.length

def countReadyGcAccounts (resources : Resources) : Nat :=
  resources.accounts.countP fun account =>
    account.usable && rested resources.now account.rateLimitedUntil &&
      account.sharedSecret.getD [] = [] &&
      !resources.keys.any fun key => key.accountId = account.id

def countReady (resources : Resources) : AccountPurchaseKind → Nat
  | .apiKey => countReadyApiKeys resources
  | .gc => countReadyGcAccounts resources

/-- An order, and whether its delivery has been made a ready account. -/
structure Order where
  kind : AccountPurchaseKind
  status : MarketplaceOrderStatus := .pending
  provisioned : Bool := false

def countPendingOrders (orders : List Order) (kind : AccountPurchaseKind) : Nat :=
  orders.countP fun order => order.kind = kind && order.status = .pending

/-! ## A pass -/

structure Settings where
  desiredApiKeys : Nat
  desiredGcAccounts : Nat
  marketplaceBuyMax : Nat

def Settings.desired (settings : Settings) : AccountPurchaseKind → Nat
  | .apiKey => settings.desiredApiKeys
  | .gc => settings.desiredGcAccounts

/-- `Math.max(0, …)`. -/
def replenishGap (desired ready pending : Nat) : Nat := desired - ready - pending

/-- Where a pass is. -/
inductive Pass where
  | counting (kind : AccountPurchaseKind) (settings : Settings)
  | counted (kind : AccountPurchaseKind) (settings : Settings) (ready : Nat)
  | missing (kind : AccountPurchaseKind) (settings : Settings) (gap : Nat)
  /-- The loop of `buyAccounts`, with the orders which are still to be made. -/
  | buying (kind : AccountPurchaseKind) (settings : Settings) (count : Nat)

/-- Behind one kind. -/
def Pass.behind (settings : Settings) : AccountPurchaseKind → Option Pass
  | .apiKey => some (.counting .gc settings)
  | .gc => none

/-- What a pass hears of the product it is to buy. -/
inductive Product where
  /-- The marketplace is not configured, or no product is whitelisted. -/
  | unavailable
  /-- `assertBuyableProduct` throws. -/
  | refused
  /-- With the settings which `buyAccounts` reads again. -/
  | buyable (marketplaceBuyMax : Nat)

/-- Before the loop of `buyAccounts`. -/
def buyAccounts (kind : AccountPurchaseKind) (settings : Settings) (gap : Nat) :
    Product → Option Pass
  | .unavailable => Pass.behind settings kind
  | .refused => none
  | .buyable marketplaceBuyMax =>
      let count := min gap settings.marketplaceBuyMax
      if count < 1 ∨ marketplaceBuyMax < count then none else some (.buying kind settings count)

structure State where
  resources : Resources := {}
  orders : List Order := []
  pass : Option Pass := none

inductive Event where
  /-- `getAppSettings` of a pass. -/
  | start (settings : Settings)
  | countReady
  | countPendingOrders
  | buyAccounts (product : Product)
  /-- `insertMarketplaceOrder` of the pass. -/
  | buyOne
  /-- All orders of one kind are made. -/
  | bought
  /-- A call throws. -/
  | abort
  /-- An order of the shop's other customers, the command line and the HTTP interface. -/
  | buyElsewhere (kind : AccountPurchaseKind)
  /-- The account of an order becomes ready, or it turns out that it does not. -/
  | provision (order : Nat) (resources : Resources)
  | finish (order : Nat) (status : MarketplaceOrderStatus)
  /-- Anything else changes the tables, or time passes. -/
  | change (resources : Resources)

namespace State

def ready (state : State) (kind : AccountPurchaseKind) : Nat := countReady state.resources kind

def order (state : State) (kind : AccountPurchaseKind) : State :=
  { state with orders := state.orders ++ [{ kind }] }

def updateOrder (state : State) (index : Nat) (set : Order → Order) : State :=
  { state with orders := state.orders.modify index set }

end State

def next (state : State) : Event → Option State
  | .start settings =>
      match state.pass with
      | none => some { state with pass := some (.counting .apiKey settings) }
      | some _ => none
  | .countReady =>
      match state.pass with
      | some (.counting kind settings) =>
          some { state with pass := some (.counted kind settings (state.ready kind)) }
      | _ => none
  | .countPendingOrders =>
      match state.pass with
      | some (.counted kind settings ready) =>
          let pending := countPendingOrders state.orders kind
          let gap := replenishGap (settings.desired kind) ready pending
          let pass :=
            if gap = 0 then Pass.behind settings kind else some (.missing kind settings gap)
          some { state with pass }
      | _ => none
  | .buyAccounts product =>
      match state.pass with
      | some (.missing kind settings gap) =>
          some { state with pass := buyAccounts kind settings gap product }
      | _ => none
  | .buyOne =>
      match state.pass with
      | some (.buying kind settings (count + 1)) =>
          some { state.order kind with pass := some (.buying kind settings count) }
      | _ => none
  | .bought =>
      match state.pass with
      | some (.buying kind settings 0) => some { state with pass := Pass.behind settings kind }
      | _ => none
  | .abort => some { state with pass := none }
  | .buyElsewhere kind => some (state.order kind)
  | .provision index resources =>
      some { state.updateOrder index ({ · with provisioned := true }) with resources }
  | .finish index status =>
      if status = .pending then none
      else some (state.updateOrder index ({ · with status }))
  | .change resources => some { state with resources }

/-! ## The supply -/

/-- An order whose account is still to come. -/
def Order.outstanding (kind : AccountPurchaseKind) (order : Order) : Bool :=
  order.kind = kind && order.status = .pending && !order.provisioned

namespace State

/-- The ready accounts, and those which are still to come. -/
def supply (state : State) (kind : AccountPurchaseKind) : Nat :=
  state.ready kind + state.orders.countP (Order.outstanding kind)

/-- How many orders of a kind the pass may still make. -/
def room (state : State) (kind : AccountPurchaseKind) : Nat :=
  match state.pass with
  | some (.missing other _ count) | some (.buying other _ count) =>
      if other = kind then count else 0
  | _ => 0

/-- The pass has counted what is ready, and not yet what is on order. -/
def halfCounted (state : State) (kind : AccountPurchaseKind) : Bool :=
  match state.pass with
  | some (.counted other _ _) => other = kind
  | _ => false

end State

/-- An order of the pass. -/
def bought (kind : AccountPurchaseKind) (state : State) (event : Event) (_ : State) : Nat :=
  match event, state.pass with
  | .buyOne, some (.buying other _ _) => if other = kind then 1 else 0
  | _, _ => 0

/-- By how much the supply grows otherwise. -/
def grown (kind : AccountPurchaseKind) (state : State) (event : Event) (after : State) : Nat :=
  after.supply kind - state.supply kind - bought kind state event after

def lost (kind : AccountPurchaseKind) (state : State) (_ : Event) (after : State) : Nat :=
  state.supply kind - after.supply kind

/-- What becomes ready between the two counts without making the supply grow: the account of an
order. If the order is finished before the second count, the pass sees neither of them. -/
def unseen (kind : AccountPurchaseKind) (state : State) (_ : Event) (after : State) : Nat :=
  if state.halfCounted kind then
    (after.ready kind - state.ready kind) - (after.supply kind - state.supply kind)
  else 0

theorem supply_order (state : State) (kind other : AccountPurchaseKind) :
    (state.order other).supply kind = state.supply kind + if other = kind then 1 else 0 := by
  unfold State.supply State.order
  rw [List.countP_append, List.countP_singleton, ← Nat.add_assoc]
  congr 1
  simp [Order.outstanding]

/-- What is outstanding is on order. -/
theorem countP_outstanding_le (kind : AccountPurchaseKind) (orders : List Order) :
    orders.countP (Order.outstanding kind) ≤ countPendingOrders orders kind := by
  refine List.countP_mono_left fun order _ outstanding => ?_
  exact (Bool.and_eq_true_iff.mp outstanding).1

def Pass.settings : Pass → Settings
  | .counting _ settings | .counted _ settings _ | .missing _ settings _ | .buying _ settings _ =>
      settings

/-- What a pass may still buy leads to no more than the limit, apart from what has come in. -/
structure Within (kind : AccountPurchaseKind) (limit spent : Nat) (state : State) : Prop where
  supply : state.supply kind + state.room kind ≤ limit + spent
  ready : ∀ settings count, state.pass = some (.counted kind settings count) →
    state.ready kind ≤ count + spent
  desired : ∀ pass, state.pass = some pass → pass.settings.desired kind ≤ limit

variable {kind : AccountPurchaseKind} {limit spent : Nat} {state after : State} {event : Event}

/-- Behind a kind a pass has counted nothing and may buy nothing. -/
theorem Within.behind (within : Within kind limit spent state) (other : AccountPurchaseKind)
    {settings : Settings} (desired : settings.desired kind ≤ limit) :
    Within kind limit spent { state with pass := Pass.behind settings other } where
  supply := by
    have room : State.room { state with pass := Pass.behind settings other } kind = 0 := by
      cases other <;> rfl
    rw [room]
    exact (Nat.le_add_right _ _).trans within.supply
  ready settings count counted := by cases other <;> cases counted
  desired pass entered := by
    cases other with
    | apiKey =>
        cases entered
        exact desired
    | gc => cases entered

/-- The tables change, and the pass does not. -/
theorem Within.world (within : Within kind limit spent state) (same : after.pass = state.pass)
    (other : bought kind state event after = 0) :
    Within kind limit (spent + (grown kind state event after + unseen kind state event after))
      after where
  supply := by
    have room : after.room kind = state.room kind := by rw [State.room, State.room, same]
    have before := within.supply
    rw [room, grown, other]
    omega
  ready settings count counted := by
    rw [same] at counted
    have before := within.ready settings count counted
    have half : state.halfCounted kind = true := by simp [State.halfCounted, counted]
    rw [grown, other, unseen, if_pos half]
    omega
  desired pass entered := within.desired pass (same ▸ entered)

theorem Within.mono {more : Nat} (le : spent ≤ more) (within : Within kind limit spent state) :
    Within kind limit more state where
  supply := within.supply.trans (Nat.add_le_add_left le _)
  ready settings count counted :=
    (within.ready settings count counted).trans (Nat.add_le_add_left le _)
  desired := within.desired

/-- A pass which has counted both buys no more than what is missing. -/
theorem Within.missing (within : Within kind limit spent state) {other : AccountPurchaseKind}
    {settings : Settings} {ready : Nat}
    (counted : state.pass = some (.counted other settings ready)) :
    let pending := countPendingOrders state.orders other
    let gap := replenishGap (settings.desired other) ready pending
    gap ≠ 0 →
      Within kind limit spent { state with pass := some (.missing other settings gap) } := by
  intro pending gap _
  have desired : settings.desired kind ≤ limit := within.desired _ counted
  constructor
  · change state.supply kind + (if other = kind then gap else 0) ≤ limit + spent
    split_ifs with same
    · subst same
      have seen := within.ready settings ready counted
      have known := countP_outstanding_le other state.orders
      have missing : gap = settings.desired other - ready - pending := rfl
      simp only [State.supply]
      omega
    · exact (Nat.le_add_right _ _).trans within.supply
  · intro settings count entered
    cases entered
  · intro pass entered
    cases entered
    exact desired

theorem Within.buying (within : Within kind limit spent state) {other : AccountPurchaseKind}
    {settings : Settings} {gap count : Nat}
    (missing : state.pass = some (.missing other settings gap)) (le : count ≤ gap) :
    Within kind limit spent { state with pass := some (.buying other settings count) } := by
  have before := within.supply
  have room : state.room kind = if other = kind then gap else 0 := by
    simp only [State.room, missing]
  have desired : settings.desired kind ≤ limit := within.desired _ missing
  rw [room] at before
  constructor
  · change state.supply kind + (if other = kind then count else 0) ≤ limit + spent
    split_ifs at before ⊢ <;> omega
  · intro settings count entered
    cases entered
  · intro pass entered
    cases entered
    exact desired

theorem Within.order (within : Within kind limit spent state) {other : AccountPurchaseKind}
    {settings : Settings} {count : Nat}
    (buying : state.pass = some (.buying other settings (count + 1))) :
    Within kind limit spent
      { state.order other with pass := some (.buying other settings count) } := by
  have before := within.supply
  have room : state.room kind = if other = kind then count + 1 else 0 := by
    simp only [State.room, buying]
  have desired : settings.desired kind ≤ limit := within.desired _ buying
  rw [room] at before
  constructor
  · change (state.order other).supply kind + (if other = kind then count else 0) ≤ limit + spent
    rw [supply_order]
    split_ifs at before ⊢ <;> omega
  · intro settings count entered
    cases entered
  · intro pass entered
    cases entered
    exact desired

theorem Within.none (within : Within kind limit spent state) :
    Within kind limit spent { state with pass := none } :=
  ⟨(Nat.le_add_right _ _).trans within.supply, nofun, nofun⟩

/-- Every step keeps the limit, apart from what comes in with it. -/
theorem Within.next (within : Within kind limit spent state)
    (wanted : ∀ settings, event = .start settings → settings.desired kind ≤ limit)
    (step : next state event = some after) :
    Within kind limit (spent + (grown kind state event after + unseen kind state event after))
      after := by
  have more := Nat.le_add_right spent (grown kind state event after + unseen kind state event after)
  cases event with
  | start settings =>
      simp only [Replenish.next] at step
      split at step
      · cases step
        refine .mono more
          ⟨(Nat.le_add_right _ _).trans within.supply, nofun, fun pass entered => ?_⟩
        cases entered
        exact wanted settings rfl
      · cases step
  | countReady =>
      simp only [Replenish.next] at step
      split at step
      · rename_i other settings counting
        cases step
        have desired : settings.desired kind ≤ limit := within.desired _ counting
        refine .mono more ⟨(Nat.le_add_right _ _).trans within.supply, ?_, fun pass entered => ?_⟩
        · rintro settings count ⟨⟩
          exact Nat.le_add_right _ _
        · cases entered
          exact desired
      · cases step
  | countPendingOrders =>
      simp only [Replenish.next] at step
      split at step
      · rename_i other settings ready counted
        cases step
        refine .mono more ?_
        split_ifs with enough
        · exact within.behind other (within.desired _ counted)
        · exact within.missing counted enough
      · cases step
  | buyAccounts product =>
      simp only [Replenish.next] at step
      split at step
      · rename_i other settings gap missing
        cases step
        refine .mono more ?_
        cases product with
        | unavailable => exact within.behind other (within.desired _ missing)
        | refused => exact within.none
        | buyable marketplaceBuyMax =>
            simp only [buyAccounts]
            split_ifs
            · exact within.none
            · exact within.buying missing (Nat.min_le_left _ _)
      · cases step
  | buyOne =>
      simp only [Replenish.next] at step
      split at step
      · rename_i other settings count buying
        cases step
        exact .mono more (within.order buying)
      · cases step
  | bought =>
      simp only [Replenish.next] at step
      split at step
      · rename_i other settings buying
        cases step
        exact .mono more (within.behind other (within.desired _ buying))
      · cases step
  | abort =>
      cases step
      exact .mono more within.none
  | buyElsewhere other =>
      cases step
      exact within.world rfl rfl
  | provision index resources =>
      cases step
      exact within.world rfl rfl
  | finish index status =>
      obtain ⟨-, ⟨⟩⟩ := Option.ite_none_left_eq_some.mp step
      exact within.world rfl rfl
  | change resources =>
      cases step
      exact within.world rfl rfl

/-- What a step makes of the supply. -/
theorem supply_next (kind : AccountPurchaseKind) (step : next state event = some after) :
    state.supply kind + (bought kind state event after + grown kind state event after) =
      after.supply kind + lost kind state event after := by
  have covered : bought kind state event after ≤ after.supply kind - state.supply kind := by
    cases event with
    | buyOne =>
        simp only [next] at step
        split at step
        · rename_i other settings count buying
          cases step
          have more := supply_order state kind other
          simp only [bought, buying]
          change _ ≤ (state.order other).supply kind - state.supply kind
          rw [more, Nat.add_sub_cancel_left]
        · cases step
    | _ => exact Nat.zero_le _
  unfold grown lost
  omega

/-- The supply accounts for what was bought, what came in otherwise and what was lost. -/
theorem supply_run (kind : AccountPurchaseKind) {start final : State} {events : List Event}
    (execution : Schedule.run next start events = some final) :
    start.supply kind + (Schedule.total next (bought kind) start events +
        Schedule.total next (grown kind) start events) =
      final.supply kind + Schedule.total next (lost kind) start events := by
  induction events generalizing start with
  | nil =>
      cases execution
      rfl
  | cons event events ih =>
      obtain ⟨after, step, rest⟩ := Schedule.run_cons_eq_some.mp execution
      have here := supply_next kind step
      have later := ih rest
      rw [Schedule.total_cons step, Schedule.total_cons step, Schedule.total_cons step]
      omega

/-- Whatever happens to the accounts and the orders while passes count and buy: apart from what
comes in otherwise and from what becomes ready unseen between two counts, the supply of a kind does
not exceed what is wanted, and apart from what is lost, no more is bought than was missing. -/
theorem supply_of_run (kind : AccountPurchaseKind) {limit : Nat} {start final : State}
    {events : List Event} (idle : start.pass = none)
    (wanted : ∀ settings, .start settings ∈ events → settings.desired kind ≤ limit)
    (execution : Schedule.run next start events = some final) :
    let most := max (start.supply kind) limit + Schedule.total next (unseen kind) start events
    final.supply kind ≤ most + Schedule.total next (grown kind) start events ∧
      start.supply kind + Schedule.total next (bought kind) start events ≤
        most + Schedule.total next (lost kind) start events := by
  intro most
  have first : Within kind (max (start.supply kind) limit) 0 start := by
    refine ⟨?_, fun settings count counted => ?_, fun pass entered => ?_⟩
    · have room : start.room kind = 0 := by simp only [State.room, idle]
      rw [room]
      exact Nat.le_max_left _ _
    · rw [idle] at counted
      cases counted
    · rw [idle] at entered
      cases entered
  have last := Schedule.run_total (fun event member within step => within.next
    (fun settings same => (wanted settings (same ▸ member)).trans (Nat.le_max_right _ _)) step)
    first execution
  have bound := (Nat.le_add_right _ _).trans last.supply
  rw [Schedule.total_add execution, Nat.zero_add] at bound
  have accounted := supply_run kind execution
  exact ⟨by omega, by omega⟩

/-- An account with a key, and one order. -/
def oneOrder : State where
  resources := { accounts := [{ id := 7 }], keys := [{ accountId := 7 }] }
  orders := [{ kind := .gc }]

/-- The order succeeds between the two counts of a pass, which orders once more. -/
def crossing : List Event :=
  [.start { desiredApiKeys := 1, desiredGcAccounts := 1, marketplaceBuyMax := 5 },
    .countReady, .countPendingOrders, .countReady,
    .provision 0 { oneOrder.resources with accounts := [{ id := 7 }, { id := 8 }] },
    .finish 0 .success, .countPendingOrders, .buyAccounts (.buyable 5), .buyOne, .bought]

theorem supply_of_run_crossing :
    ∃ final, Schedule.run next oneOrder crossing = some final ∧
      let most := max (oneOrder.supply .gc) 1 +
        Schedule.total next (unseen .gc) oneOrder crossing
      final.supply .gc ≤ most + Schedule.total next (grown .gc) oneOrder crossing ∧
        oneOrder.supply .gc + Schedule.total next (bought .gc) oneOrder crossing ≤
          most + Schedule.total next (lost .gc) oneOrder crossing := by
  refine ⟨_, rfl, supply_of_run .gc rfl ?_ rfl⟩
  intro settings started
  simp only [crossing, List.mem_cons, Event.start.injEq, reduceCtorEq, List.not_mem_nil,
    or_false] at started
  rw [started]
  exact Nat.le_refl 1

/-- Both bounds are reached. -/
example : (Schedule.run next oneOrder crossing).map (State.supply · .gc) = some 2 ∧
    Schedule.total next (unseen .gc) oneOrder crossing = 1 ∧
    Schedule.total next (bought .gc) oneOrder crossing = 1 := by
  decide

end Replenish
end Marketplace
end DotaCollector
