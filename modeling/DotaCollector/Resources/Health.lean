import DotaCollector.Library.Processes
import DotaCollector.Library.Rounding
import DotaCollector.Library.Schedule

/-!
# The health of an API key or a GC account

One row of `steam_api_keys` or `steam_accounts` and everything that writes its status or its
retest counter. A pick, a disable, a recorded attempt and a retest each read first and write in a
later statement. What other rows say (whether the account of a key is usable, whether an account
has a key of its own) is an arbitrary answer of the step that asks.
-/

namespace DotaCollector
namespace Resources

inductive ResourceKind where
  | apiKey
  | gcAccount
  deriving DecidableEq, Repr

inductive ResourceStatus where
  | ready
  | active
  | rateLimited
  | disabled
  deriving DecidableEq, Repr

structure Resource where
  status : ResourceStatus := .ready
  lastError : Option String := none
  retestCount : Nat := 0
  rateLimitedUntil : Option Nat := none
  deriving DecidableEq, Repr

/-- The settings of one kind; the loader refuses a percentage above 100 and an integer below 1. -/
structure HealthSettings where
  percent : ℚ
  window : Nat
  retestMax : Nat
  window_pos : 0 < window
  retestMax_pos : 0 < retestMax

/-- `n / 100`, in doubles. -/
def HealthSettings.threshold (settings : HealthSettings) : ℚ :=
  Double.round (settings.percent / 100)

/-- `fails / rows.length`, in doubles. -/
def failRatio (outcomes : List Bool) : ℚ :=
  Double.round ((outcomes.count false : ℚ) / outcomes.length)

/-! ## The statements on the row -/

/-- The one `UPDATE` of this component; what is not given stays. -/
def updateResource (status : Option ResourceStatus) (lastError : Option (Option String))
    (retestCount : Option Nat) (bumpRetest : Bool) (row : Resource) : Resource :=
  { row with
    status := status.getD row.status
    lastError := lastError.getD row.lastError
    retestCount := if bumpRetest then row.retestCount + 1 else retestCount.getD row.retestCount }

def disableResource (settings : HealthSettings) (error : String) (giveUp : Bool) :
    Resource → Resource :=
  updateResource (some .disabled) (some (some error))
    (some (if giveUp then settings.retestMax else 0)) false

def restoreResource : Resource → Resource := updateResource (some .ready) (some none) (some 0) false

def bumpResourceRetest (error : String) : Resource → Resource :=
  updateResource none (some (some error)) none true

/-- What an attempt behind which the window is not crossed writes. -/
def noteError (error : String) : Resource → Resource :=
  updateResource none (some (some error)) none false

/-- The `UPDATE` of `pickApiCredential`. -/
def takeKey (row : Resource) : Resource := { row with status := .active, rateLimitedUntil := none }

def markApiKeyRateLimited (error : String) (until_ : Nat) (row : Resource) : Resource :=
  if row.status ≠ .disabled then
    { row with
      status := .rateLimited, rateLimitedUntil := some until_, lastError := some error }
  else row

def clearApiKeyRateLimit (row : Resource) : Resource :=
  if row.status ≠ .disabled then
    { row with
      status := if row.status = .rateLimited then .active else row.status
      rateLimitedUntil := none }
  else row

/-- The `UPDATE` of `markProxyActive`, on a row of `proxies`. -/
def markProxyActive (row : Resource) : Resource :=
  if row.status = .ready ∨ row.status = .active then
    { row with
      status := .active
      lastError := none }
  else row

/-- The key part of `seedSteamResources`, on an existing key. -/
def seedKey (row : Resource) : Resource := { row with status := .ready }

def markAccountError (error : String) (disable : Bool) (rateLimitMs : Option Nat) (now : Nat)
    (row : Resource) : Resource :=
  { row with
    status :=
      if disable then .disabled
      else if rateLimitMs.getD 0 ≠ 0 then .rateLimited
      else .ready
    lastError := some error
    rateLimitedUntil := rateLimitMs.map (now + ·) }

def markAccountLogin (row : Resource) : Resource :=
  { row with status := .active, lastError := none }

/-! ## The conditions on the row -/

/-- The statuses from which a resource is taken. -/
def usable : ResourceKind → ResourceStatus → Bool
  | .apiKey, .ready | .apiKey, .active | .apiKey, .rateLimited => true
  | .gcAccount, .ready | .gcAccount, .active => true
  | _, _ => false

/-- What `pickApiCredential` and `listGcAccounts` ask of the row itself. -/
def pickable (kind : ResourceKind) (now : Nat) (row : Resource) : Bool :=
  usable kind row.status && row.rateLimitedUntil.all (· < now)

/-- What a retest tick asks of the row itself. -/
def retestEligible (settings : HealthSettings) (row : Resource) : Bool :=
  row.status = .disabled && row.retestCount < settings.retestMax

/-- Whether the attempts in the window, newest first, fail too often. -/
def crossed (settings : HealthSettings) (attempts : List Bool) : Bool :=
  let rows := attempts.take settings.window
  if rows.length < settings.window then false
  else settings.threshold ≤ failRatio rows

/-! ## The system -/

/-- Where a process is between two statements on the resource. -/
inductive Phase where
  | idle
  /-- `pickApiCredential` has selected the key. -/
  | picked
  | disabling (error : String) (giveUp : Bool)
  | noting (error : String)
  /-- A retest tick has selected the resource and probes it. -/
  | probing
  | restoring
  | bumping (error : String)
  deriving DecidableEq, Repr

variable {Process : Type*} [DecidableEq Process]

/-- The row, its recorded attempts, newest first, and the processes. -/
structure State (Process : Type*) where
  row : Resource
  attempts : List Bool := []
  phase : Process → Phase := fun _ => .idle

inductive Event (Process : Type*) where
  | select (process : Process) (now : Nat) (scene : Bool)
  | pick (process : Process)
  /-- HTTP 403 for a key, `InvalidPassword` for an account. -/
  | giveUp (process : Process) (error : String)
  | attempt (process : Process) (ok : Bool) (error : String)
  | update (process : Process)
  | selectRetest (process : Process) (scene : Bool)
  | probe (process : Process) (result : Except String Unit)
  | markRateLimited (error : String) (until_ : Nat)
  | clearRateLimit
  | seed
  | accountError (error : String) (disable : Bool) (rateLimitMs : Option Nat) (now : Nat)
  | accountLogin

namespace State

def setPhase (state : State Process) (process : Process) (phase : Phase) : State Process :=
  { state with phase := Function.update state.phase process phase }

/-- One `UPDATE` of the row which no later statement of its process depends on. -/
def write (state : State Process) (statement : Resource → Resource) : State Process :=
  { state with row := statement state.row }

end State

/-- The statement which a process is about to make. -/
def pending (settings : HealthSettings) : Phase → Option (Resource → Resource)
  | .disabling error giveUp => some (disableResource settings error giveUp)
  | .noting error => some (noteError error)
  | .restoring => some restoreResource
  | .bumping error => some (bumpResourceRetest error)
  | .idle | .picked | .probing => none

/-- One statement, or one transaction of `recordResourceAttempt`, or one probe. -/
def next (kind : ResourceKind) (settings : HealthSettings) (state : State Process) :
    Event Process → Option (State Process)
  | .select process now scene =>
      match kind, state.phase process with
      | .apiKey, .idle =>
          if pickable kind now state.row && scene then some (state.setPhase process .picked)
          else none
      | _, _ => none
  | .pick process =>
      match state.phase process with
      | .picked => some ((state.setPhase process .idle).write takeKey)
      | _ => none
  | .giveUp process error =>
      match state.phase process with
      | .idle => some (state.setPhase process (.disabling error true))
      | _ => none
  | .attempt process ok error =>
      match state.phase process with
      | .idle =>
          let attempts := (ok :: state.attempts).take settings.window
          let phase :=
            if ok then .idle
            else if crossed settings attempts then .disabling error false
            else .noting error
          some { state.setPhase process phase with attempts }
      | _ => none
  | .update process =>
      (pending settings (state.phase process)).map fun statement =>
        (state.setPhase process .idle).write statement
  | .selectRetest process scene =>
      match state.phase process with
      | .idle =>
          if retestEligible settings state.row && scene then
            some (state.setPhase process .probing)
          else none
      | _ => none
  | .probe process result =>
      match state.phase process with
      | .probing =>
          match result with
          | .ok () => some (state.setPhase process .restoring)
          | .error error => some (state.setPhase process (.bumping error))
      | _ => none
  | .markRateLimited error until_ =>
      if kind = .apiKey then some (state.write (markApiKeyRateLimited error until_)) else none
  | .clearRateLimit =>
      if kind = .apiKey then some (state.write clearApiKeyRateLimit) else none
  | .seed => if kind = .apiKey then some (state.write seedKey) else none
  | .accountError error disable rateLimitMs now =>
      if kind = .gcAccount then some (state.write (markAccountError error disable rateLimitMs now))
      else none
  | .accountLogin =>
      if kind = .gcAccount then some (state.write markAccountLogin) else none

end Resources
end DotaCollector
