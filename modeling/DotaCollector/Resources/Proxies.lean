import Mathlib.Data.Fintype.Prod
import Mathlib.Data.List.MinMax
import Mathlib.Data.Prod.Lex
import Mathlib.Logic.Function.Basic
import DotaCollector.Library.LeastLoaded
import DotaCollector.Library.Rows
import DotaCollector.Library.Schedule
import DotaCollector.Resources.Health

/-!
# Sticky proxies

Every account and every API key keeps the proxy it is bound to while that proxy is usable, and is
bound to the least loaded one otherwise. The look at the proxies and the write of the binding are
two statements, so any number of processes may choose the same proxy before one of them has bound
anything to it.
-/

namespace DotaCollector
namespace Resources
namespace Proxies

inductive ProxyKind where
  | http
  | socks5
  deriving DecidableEq, Repr

inductive ProxyPurpose where
  | api
  | gc
  | both
  deriving DecidableEq, Repr

inductive ProxyNeed where
  | api
  | gc
  deriving DecidableEq, Repr

/-- A row of `proxies`. -/
structure Proxy where
  id : Nat
  url : String
  kind : ProxyKind
  purpose : ProxyPurpose
  status : ResourceStatus := .ready
  lastError : Option String := none
  rateLimitedUntil : Option Nat := none
  deriving DecidableEq, Repr

/-- What is bound to a proxy: a row of `steam_accounts` or of `steam_api_keys`. -/
inductive Owner where
  | account (id : Nat)
  | apiKey (id : Nat)
  deriving DecidableEq, Repr

structure Binding where
  owner : Owner
  proxyId : Option Nat := none
  deriving DecidableEq, Repr

def Binding.moveTo (proxyId : Nat) (row : Binding) : Binding :=
  { row with proxyId := some proxyId }

theorem owner_moveTo (proxyId : Nat) (row : Binding) : (row.moveTo proxyId).owner = row.owner :=
  rfl

structure BoundProxy where
  id : Nat
  url : String
  kind : ProxyKind
  purpose : ProxyPurpose
  deriving DecidableEq, Repr

def mapProxy (row : Proxy) : BoundProxy where
  id := row.id
  url := row.url
  kind := row.kind
  purpose := row.purpose

def purposeList : ProxyNeed → List ProxyPurpose
  | .api => [.api, .both]
  | .gc => [.gc, .both]

def isLiveStatus (now : Nat) (row : Proxy) : Bool :=
  (row.status = .ready || row.status = .active) && row.rateLimitedUntil.all (· < now)

/-! ## The statements -/

/-- The tables. -/
structure Tables where
  proxies : Rows Proxy.id := {}
  bindings : Rows Binding.owner := {}

namespace Tables

/-- The accounts and the keys which are bound to a proxy. -/
def load (tables : Tables) (proxyId : Nat) : Nat :=
  tables.bindings.count fun row => row.proxyId = some proxyId

def isProxyUsable (tables : Tables) (now : Nat) (proxyId : Option Nat) (need : ProxyNeed) : Bool :=
  match proxyId with
  | none => false
  | some proxyId =>
      (tables.proxies.find? proxyId).any fun row =>
        (purposeList need).contains row.purpose && isLiveStatus now row

/-- The `ORDER BY` of `pickReadyProxy`. -/
def rank (tables : Tables) (preferSocks preferHttp : Bool) (row : Proxy) : Nat ×ₗ Nat ×ₗ Nat :=
  toLex
    (if preferSocks && row.kind = .socks5 then 0
      else if preferHttp && row.kind = .http then 0
      else 1,
    toLex (tables.load row.id, row.id))

/-- The `WHERE` of `pickReadyProxy`. -/
def eligible (now : Nat) (need : ProxyNeed) (excludeIds : List Nat) (row : Proxy) : Bool :=
  isLiveStatus now row && (purposeList need).contains row.purpose &&
    !(if excludeIds.isEmpty then [0] else excludeIds).contains row.id

def pickReadyProxy (tables : Tables) (now : Nat) (need : ProxyNeed) (excludeIds : List Nat)
    (preferKind : Option ProxyKind) : Option BoundProxy :=
  let preferSocks := preferKind = some .socks5 || (preferKind = none && need = .gc)
  let preferHttp := preferKind = some .http || (preferKind = none && need = .api)
  ((tables.proxies.list.filter (eligible now need excludeIds)).argmin
    (tables.rank preferSocks preferHttp)).map mapProxy

/-- `bindAccountProxy` and `bindApiKeyProxy`. -/
def bindProxy (tables : Tables) (owner : Owner) (proxyId : Nat) : Tables :=
  { tables with
    bindings := tables.bindings.update owner (Binding.moveTo proxyId) (owner_moveTo proxyId) }

def markProxyActive (tables : Tables) (proxyId : Nat) : Tables :=
  { tables with
    proxies := tables.proxies.update proxyId
      (fun row =>
        if row.status = .ready || row.status = .active then
          { row with status := .active, lastError := none }
        else row)
      fun row => by split_ifs <;> rfl }

end Tables

/-! ## The calls -/

inductive Call where
  | ensureAccountProxy (accountId : Nat) (proxyId : Option Nat)
  | ensureApiKeyProxy (keyId : Nat)
  | rotateAccountProxy (accountId deadProxyId : Nat) (preferKind : Option ProxyKind)
  | rotateDeadApiKeyProxy (keyId deadProxyId : Nat)
  deriving DecidableEq, Repr

namespace Call

def owner : Call → Owner
  | .ensureAccountProxy accountId _ | .rotateAccountProxy accountId _ _ => .account accountId
  | .ensureApiKeyProxy keyId | .rotateDeadApiKeyProxy keyId _ => .apiKey keyId

def need : Call → ProxyNeed
  | .ensureAccountProxy .. | .rotateAccountProxy .. => .gc
  | .ensureApiKeyProxy .. | .rotateDeadApiKeyProxy .. => .api

def preferKind : Call → Option ProxyKind
  | .rotateAccountProxy _ _ preferKind => preferKind
  | _ => none

/-- The proxy which a rotation falls back to. -/
def deadProxyId : Call → Option Nat
  | .rotateAccountProxy _ deadProxyId _ | .rotateDeadApiKeyProxy _ deadProxyId => some deadProxyId
  | _ => none

end Call

/-- Where a process stands in its call. -/
inductive Phase where
  | idle
  | calling (call : Call)
  /-- In front of `SELECT … WHERE id = …`, for a proxy which was found usable. -/
  | reading (call : Call) (proxyId : Nat)
  | picking (call : Call) (excludeIds : List Nat)
  | picked (call : Call) (next : BoundProxy)
  | bound (next : BoundProxy)
  /-- No other proxy than the dead one was found. -/
  | fallingBack (call : Call) (deadProxyId : Nat)
  /-- The result, or `NoUsableProxyError`. -/
  | returned (result : Option BoundProxy)
  deriving DecidableEq, Repr

/-- The proxy which is chosen and not yet bound. -/
def Phase.chosen : Phase → Option Nat
  | .picked _ next => some next.id
  | _ => none

variable {Process : Type*}

structure State (Process : Type*) where
  tables : Tables
  phase : Process → Phase

inductive Event (Process : Type*) where
  | call (process : Process) (call : Call)
  /-- The first statement which looks at a proxy; the attempt which a rotation records before is
  an event of its own. -/
  | look (process : Process) (now : Nat)
  | read (process : Process)
  | pick (process : Process) (now : Nat)
  | bind (process : Process)
  | markActive (process : Process)
  /-- Any other statement on `proxies` leaves these rows. -/
  | proxies (rows : Rows Proxy.id)
  /-- A new account or a new key. -/
  | insert (owner : Owner)

/-- What the first look of a call leads to. -/
def lookAt (tables : Tables) (now : Nat) : Call → Phase
  | .ensureAccountProxy accountId proxyId =>
      match proxyId with
      | none => .picking (.ensureAccountProxy accountId none) []
      | some current =>
          if tables.isProxyUsable now (some current) .gc then
            .reading (.ensureAccountProxy accountId proxyId) current
          else .picking (.ensureAccountProxy accountId proxyId) [current]
  | .ensureApiKeyProxy keyId =>
      let proxyId := (tables.bindings.find? (.apiKey keyId)).bind Binding.proxyId
      let current := proxyId.bind tables.proxies.find?
      match current.filter fun row =>
          (row.purpose = .api || row.purpose = .both) && isLiveStatus now row with
      | some row => .returned (some (mapProxy row))
      | none => .picking (.ensureApiKeyProxy keyId) proxyId.toList
  | .rotateAccountProxy accountId deadProxyId preferKind =>
      .picking (.rotateAccountProxy accountId deadProxyId preferKind) [deadProxyId]
  | .rotateDeadApiKeyProxy keyId deadProxyId =>
      .picking (.rotateDeadApiKeyProxy keyId deadProxyId) [deadProxyId]

namespace State

variable [DecidableEq Process]

def setPhase (state : State Process) (process : Process) (phase : Phase) : State Process :=
  { state with phase := Function.update state.phase process phase }

def next (state : State Process) : Event Process → Option (State Process)
  | .call process call =>
      match state.phase process with
      | .idle | .returned _ => some (state.setPhase process (.calling call))
      | _ => none
  | .look process now =>
      match state.phase process with
      | .calling call => some (state.setPhase process (lookAt state.tables now call))
      | .fallingBack call deadProxyId =>
          if state.tables.isProxyUsable now (some deadProxyId) call.need then
            some (state.setPhase process (.reading call deadProxyId))
          else some (state.setPhase process (.returned none))
      | _ => none
  | .read process =>
      match state.phase process with
      | .reading call proxyId =>
          match state.tables.proxies.find? proxyId with
          | some row => some (state.setPhase process (.returned (some (mapProxy row))))
          | none =>
              match call.deadProxyId with
              | some _ => some (state.setPhase process (.returned none))
              | none => some (state.setPhase process (.picking call [proxyId]))
      | _ => none
  | .pick process now =>
      match state.phase process with
      | .picking call excludeIds =>
          match state.tables.pickReadyProxy now call.need excludeIds call.preferKind with
          | some next => some (state.setPhase process (.picked call next))
          | none =>
              match call.deadProxyId with
              | some deadProxyId => some (state.setPhase process (.fallingBack call deadProxyId))
              | none => some (state.setPhase process (.returned none))
      | _ => none
  | .bind process =>
      match state.phase process with
      | .picked call next =>
          some ({ state with tables := state.tables.bindProxy call.owner next.id }.setPhase process
            (.bound next))
      | _ => none
  | .markActive process =>
      match state.phase process with
      | .bound next =>
          some ({ state with tables := state.tables.markProxyActive next.id }.setPhase process
            (.returned (some next)))
      | _ => none
  | .proxies rows => some { state with tables := { state.tables with proxies := rows } }
  | .insert owner =>
      some { state with
        tables := { state.tables with bindings := state.tables.bindings.insertNew { owner } } }

end State

/-! ## The load of two proxies -/

/-- Two proxies between which no query prefers one but for its load. -/
def Alike (tables : Tables) (first second : Nat) : Prop :=
  (tables.proxies.find? first).any (fun row => (tables.proxies.find? second).any fun other =>
    row.kind = other.kind && row.purpose = other.purpose) = true

instance (tables : Tables) (first second : Nat) : Decidable (Alike tables first second) :=
  inferInstanceAs (Decidable (_ = true))

/-- The event neither takes an owner from the proxy nor picks while the proxy is ruled out. -/
def Spares (proxyId : Nat) (state : State Process) : Event Process → Prop
  | .pick process now =>
      match state.phase process with
      | .picking _ excludeIds =>
          (state.tables.proxies.find? proxyId).any (isLiveStatus now) = true ∧
            proxyId ∉ if excludeIds.isEmpty then [0] else excludeIds
      | _ => True
  | .bind process =>
      match state.phase process with
      | .picked call next =>
          (state.tables.bindings.find? call.owner).bind Binding.proxyId = some proxyId →
            next.id = proxyId
      | _ => True
  | _ => True

instance (proxyId : Nat) (state : State Process) (event : Event Process) :
    Decidable (Spares proxyId state event) := by
  unfold Spares
  split
  · split <;> infer_instance
  · split <;> infer_instance
  · infer_instance

variable {tables : Tables} {first second : Nat}

theorem Alike.rows (alike : Alike tables first second) :
    ∃ row ∈ tables.proxies.list, ∃ other ∈ tables.proxies.list, row.id = first ∧
      other.id = second ∧ row.kind = other.kind ∧ row.purpose = other.purpose := by
  obtain ⟨row, found, rest⟩ := (Option.any_eq_true ..).mp alike
  obtain ⟨other, foundOther, same⟩ := (Option.any_eq_true ..).mp rest
  obtain ⟨here, mine⟩ := Rows.find?_eq_some_iff.mp found
  obtain ⟨there, its⟩ := Rows.find?_eq_some_iff.mp foundOther
  rw [Bool.and_eq_true, decide_eq_true_eq, decide_eq_true_eq] at same
  exact ⟨row, here, other, there, mine, its, same⟩

/-- A pick of one of two alike proxies finds it no fuller than the other. -/
theorem load_le_of_pick {now : Nat} {need : ProxyNeed} {excludeIds : List Nat}
    {preferKind : Option ProxyKind} {next : BoundProxy} (alike : Alike tables first second)
    (found : tables.pickReadyProxy now need excludeIds preferKind = some next)
    (mine : next.id = first)
    (live : (tables.proxies.find? second).any (isLiveStatus now) = true)
    (spared : second ∉ if excludeIds.isEmpty then [0] else excludeIds) :
    tables.load first ≤ tables.load second := by
  obtain ⟨row, here, other, there, rfl, rfl, sameKind, samePurpose⟩ := alike.rows
  rw [Rows.find?_eq_some_iff.mpr ⟨there, rfl⟩] at live
  obtain ⟨winner, least, rfl⟩ := Option.map_eq_some_iff.mp found
  obtain ⟨listed, suits⟩ := List.mem_filter.mp (List.argmin_mem least)
  obtain rfl := tables.proxies.eq_of_key_eq listed here mine
  have competes : other ∈ tables.proxies.list.filter (Tables.eligible now need excludeIds) := by
    refine List.mem_filter.mpr ⟨there, ?_⟩
    unfold Tables.eligible at suits ⊢
    rw [Bool.and_eq_true, Bool.and_eq_true] at suits ⊢
    rw [← samePurpose]
    refine ⟨⟨live, suits.1.2⟩, ?_⟩
    simpa using spared
  have order := List.le_of_mem_argmin competes least
  unfold Tables.rank at order
  rw [sameKind, Prod.Lex.toLex_le_toLex] at order
  rcases order with lower | ⟨-, order⟩
  · exact absurd lower (lt_irrefl _)
  · rcases Prod.Lex.toLex_le_toLex.mp order with lower | ⟨equal, -⟩
    · exact lower.le
    · exact equal.le

theorem load_bindProxy_le (owner : Owner) (proxyId : Nat) :
    (tables.bindProxy owner proxyId).load first ≤ tables.load first + 1 :=
  Rows.count_update_le_succ (owner_moveTo proxyId)

theorem load_bindProxy_le_of_ne {owner : Owner} {proxyId : Nat} (ne : proxyId ≠ first) :
    (tables.bindProxy owner proxyId).load first ≤ tables.load first := by
  apply Rows.count_update_le (owner_moveTo proxyId)
  intro row counted
  simp only [Binding.moveTo, decide_eq_true_eq, Option.some.injEq] at counted
  exact (ne counted).elim

theorem le_load_bindProxy {owner : Owner} {proxyId : Nat}
    (spared : (tables.bindings.find? owner).bind Binding.proxyId = some second →
      proxyId = second) : tables.load second ≤ (tables.bindProxy owner proxyId).load second := by
  apply Rows.le_count_update (owner_moveTo proxyId)
  intro row here mine counted
  simp only [Binding.moveTo, decide_eq_true_eq, Option.some.injEq] at counted ⊢
  apply spared
  rw [Rows.find?_eq_some_iff.mpr ⟨here, mine⟩]
  exact counted

section Runs

variable {state after : State Process} {event : Event Process} {slack : Nat}

/-- The proxies which the processes have chosen. -/
def chosen (state : State Process) (process : Process) : Option Nat := (state.phase process).chosen

theorem chosen_setPhase [DecidableEq Process] (state : State Process) (process : Process)
    (phase : Phase) :
    chosen (state.setPhase process phase) =
      Function.update (chosen state) process phase.chosen :=
  Function.comp_update Phase.chosen state.phase process phase

variable [Fintype Process]

/-- One proxy, with what is chosen for it, is ahead of another by at most the slack. -/
def Ahead (slack : Nat) (first second : Nat) (state : State Process) : Prop :=
  LeastLoaded.Within slack state.tables.load (chosen state) first second

variable [DecidableEq Process]

/-- A process which chooses nothing changes neither loads nor choices for the worse. -/
theorem Ahead.setPhase (ahead : Ahead slack first second state) {process : Process} {phase : Phase}
    (plain : phase.chosen ≠ some first) :
    Ahead slack first second (state.setPhase process phase) := by
  unfold Ahead
  rw [chosen_setPhase]
  refine LeastLoaded.Within.keep ahead (Nat.add_le_add_left ?_ _) le_rfl
  exact LeastLoaded.pending_update_le plain

theorem chosen_lookAt (tables : Tables) (now : Nat) (call : Call) :
    (lookAt tables now call).chosen = none := by
  cases call with
  | ensureAccountProxy accountId proxyId =>
      cases proxyId with
      | none => rfl
      | some current =>
          unfold lookAt
          dsimp only
          split <;> rfl
  | ensureApiKeyProxy keyId =>
      unfold lookAt
      dsimp only
      split <;> rfl
  | rotateAccountProxy => rfl
  | rotateDeadApiKeyProxy => rfl

theorem Ahead.next (room : Fintype.card Process ≤ slack) (ahead : Ahead slack first second state)
    (alike : Alike state.tables first second) (spares : Spares second state event)
    (step : state.next event = some after) : Ahead slack first second after := by
  have rests : ∀ {process : Process} {phase : Phase}, phase.chosen = none →
      Ahead slack first second (state.setPhase process phase) :=
    fun free => ahead.setPhase (by rw [free]; simp)
  cases event with
  | call process call =>
      simp only [State.next] at step
      split at step
      · cases step
        exact rests rfl
      · cases step
        exact rests rfl
      · cases step
  | look process now =>
      simp only [State.next] at step
      split at step
      · cases step
        exact rests (chosen_lookAt _ _ _)
      · split at step
        · cases step
          exact rests rfl
        · cases step
          exact rests rfl
      · cases step
  | read process =>
      simp only [State.next] at step
      split at step
      · split at step
        · cases step
          exact rests rfl
        · split at step
          · cases step
            exact rests rfl
          · cases step
            exact rests rfl
      · cases step
  | pick process now =>
      simp only [State.next] at step
      split at step
      · rename_i call excludeIds standing
        split at step
        · rename_i picked found
          cases step
          by_cases mine : picked.id = first
          · simp only [Spares, standing] at spares
            have least := load_le_of_pick alike found mine spares.1 spares.2
            exact LeastLoaded.within_of_le room least
          · exact ahead.setPhase fun same => mine (Option.some.inj same)
        · split at step
          · cases step
            exact rests rfl
          · cases step
            exact rests rfl
      · cases step
  | bind process =>
      simp only [State.next] at step
      split at step
      · rename_i call picked standing
        cases step
        have mine : chosen state process = some picked.id := congrArg Phase.chosen standing
        simp only [Spares, standing] at spares
        have kept := le_load_bindProxy spares
        unfold Ahead
        rw [chosen_setPhase]
        by_cases same : picked.id = first
        · exact LeastLoaded.Within.fill ahead (same ▸ mine)
            (load_bindProxy_le call.owner picked.id) kept
        · refine LeastLoaded.Within.keep ahead (Nat.add_le_add ?_ ?_) kept
          · exact load_bindProxy_le_of_ne same
          · exact LeastLoaded.pending_update_le (by simp [Phase.chosen])
      · cases step
  | markActive process =>
      simp only [State.next] at step
      split at step
      · cases step
        exact rests rfl
      · cases step
  | proxies rows =>
      cases step
      exact ahead
  | insert owner =>
      cases step
      have same : ∀ proxyId, Tables.load
          { state.tables with bindings := state.tables.bindings.insertNew { owner } } proxyId =
            state.tables.load proxyId :=
        fun proxyId => Rows.count_insertNew _ (by simp)
      refine LeastLoaded.Within.keep ahead (Nat.add_le_add_right ?_ _) ?_
      · exact (same first).le
      · exact (same second).ge

/-- In whatever order any number of processes look, choose and bind: as long as two proxies have
one kind and one purpose, the second is usable at every choice and nothing is taken from it, the
first gets ahead of it by no more owners than there are processes, unless it was further ahead
before. -/
theorem load_le_of_run {initial final : State Process} {events : List (Event Process)}
    (idle : ∀ process, (initial.phase process).chosen = none)
    (holds : Schedule.Throughout State.next
      (fun state event => Alike state.tables first second ∧ Spares second state event)
      initial events)
    (execution : Schedule.run State.next initial events = some final) :
    final.tables.load first ≤ final.tables.load second +
      max (Fintype.card Process) (initial.tables.load first - initial.tables.load second) := by
  have start : Ahead (max (Fintype.card Process)
      (initial.tables.load first - initial.tables.load second)) first second initial := by
    have free : LeastLoaded.pending (chosen initial) first = 0 :=
      LeastLoaded.pending_eq_zero first idle
    unfold Ahead LeastLoaded.Within
    omega
  exact (holds.run_invariant
    (fun ahead guard step => Ahead.next (le_max_left ..) ahead guard.1 guard.2 step) start
    execution).le

end Runs

/-! ## Two processes at once -/

/-- Two proxies of one kind, and two accounts without one. -/
def twoProxies : Tables where
  proxies :=
    { list := [⟨1, "socks5://10.0.0.1:1080", .socks5, .gc, .ready, none, none⟩,
        ⟨2, "socks5://10.0.0.2:1080", .socks5, .gc, .ready, none, none⟩] }
  bindings := { list := [{ owner := .account 1 }, { owner := .account 2 }] }

/-- Both processes pick before either binds. -/
def pickTogether : List (Event Bool) :=
  [.call false (.ensureAccountProxy 1 none), .call true (.ensureAccountProxy 2 none),
    .look false 0, .look true 0, .pick false 0, .pick true 0, .bind false, .bind true,
    .markActive false, .markActive true]

/-- The bound is reached: the first proxy has both accounts, the second none. -/
theorem load_le_of_run_pickTogether : ∃ final,
    Schedule.run State.next { tables := twoProxies, phase := fun _ => .idle } pickTogether =
        some final ∧ final.tables.load 1 = 2 ∧ final.tables.load 2 = 0 ∧
      final.tables.load 1 ≤ final.tables.load 2 +
        max (Fintype.card Bool) (twoProxies.load 1 - twoProxies.load 2) := by
  have runs : (Schedule.run State.next { tables := twoProxies, phase := fun _ => .idle }
      pickTogether).any (fun final => final.tables.load 1 == 2 && final.tables.load 2 == 0) =
        true := by
    decide +kernel
  obtain ⟨final, execution, loads⟩ := (Option.any_eq_true ..).mp runs
  rw [Bool.and_eq_true, beq_iff_eq, beq_iff_eq] at loads
  exact ⟨final, execution, loads.1, loads.2,
    load_le_of_run (fun _ => rfl) (by decide +kernel) execution⟩

end Proxies
end Resources
end DotaCollector
