import Mathlib.Data.List.DropRight
import DotaCollector.Library.Double
import DotaCollector.Library.Processes
import DotaCollector.Library.Schedule

/-!
# One marketplace order

An order is inserted and paid by `buyOne` and, while its row is pending, taken up by any number
of `settle_marketplace_orders` ticks. What a process learns from the shop and what it decides is
a function of its own phase; what it writes is one statement on the row of the order. The
statements name the order by its id and do not look at its status.
-/

namespace DotaCollector
namespace Marketplace

abbrev Text := List Char

inductive MarketplaceOrderStatus where
  | pending
  | success
  | failed
  deriving DecidableEq, Repr

structure MarketplaceOrder where
  status : MarketplaceOrderStatus := .pending
  externalOrderId : Option Text := none
  steamAccountId : Option Nat := none
  errorMessage : Option Text := none
  createdAt : Int
  deriving DecidableEq, Repr

/-! ## The statements on the row -/

def insertMarketplaceOrder (createdAt : Int) : MarketplaceOrder := { createdAt }

def setMarketplaceExternalId (externalOrderId : Text) (order : MarketplaceOrder) :
    MarketplaceOrder :=
  { order with externalOrderId := some externalOrderId }

def markMarketplaceOrderPending (errorMessage : Text) (order : MarketplaceOrder) :
    MarketplaceOrder :=
  { order with errorMessage := some errorMessage }

def finishMarketplaceOrder (status : MarketplaceOrderStatus) (steamAccountId : Option Nat)
    (errorMessage : Option Text) (order : MarketplaceOrder) : MarketplaceOrder :=
  { order with status, steamAccountId, errorMessage }

/-! ## The id of a pending order -/

/-- The characters which `trim` removes. -/
def isSpace (char : Char) : Bool :=
  char.val ∈ [9, 10, 11, 12, 13, 32, 0xa0, 0x1680, 0x2028, 0x2029, 0x202f, 0x205f, 0x3000,
      0xfeff] || (0x2000 ≤ char.val && char.val ≤ 0x200a)

def trim (text : Text) : Text := (text.dropWhile isSpace).rdropWhile isSpace

/-- What stands before the id in an error message. -/
def orderLabel : Text := "dark.shopping order ".toList

/-- The digits behind a label, in any case of letters, at the start of a text. -/
def labelledDigits (text : Text) : Option Text :=
  if (text.take orderLabel.length).map Char.toLower = orderLabel then
    match (text.drop orderLabel.length).takeWhile Char.isDigit with
    | [] => none
    | digits => some digits
  else none

/-- The first match of the pattern in a text. -/
def findDigits : Text → Option Text
  | [] => none
  | char :: rest =>
      match labelledDigits (char :: rest) with
      | some digits => some digits
      | none => findDigits rest

def digitsValue (digits : Text) : Nat :=
  digits.foldl (fun value digit => 10 * value + (digit.toNat - '0'.toNat)) 0

def parseDarkOrderIdFromMessage (message : Option Text) : Option Nat :=
  (message.bind findDigits).map fun digits => Double.number (digitsValue digits)

def resolvePendingExternalId (order : MarketplaceOrder) : Option Text :=
  let stored := trim (order.externalOrderId.getD [])
  if stored ≠ [] then some stored
  else (parseDarkOrderIdFromMessage order.errorMessage).map (Nat.toDigits 10)

def pendingOrderExpired (createdAt now ttlMs : Int) : Bool := ttlMs ≤ now - createdAt

/-! ## What a process learns and decides -/

/-- An error thrown by a call of the shop. -/
inductive PurchaseError where
  | darkShopping (status : Nat) (message : Text)
  | other (message : Text)
  deriving DecidableEq, Repr

def classifyPurchaseError : PurchaseError → MarketplaceOrderStatus × Text
  | .darkShopping 408 message => (.pending, message)
  | .darkShopping _ message => (.failed, message)
  | .other message => (.failed, message)

inductive MarketplaceDeliveryPeek where
  | ready
  | failed (errorMessage : Text)
  | pending (status : Text)
  deriving DecidableEq, Repr

/-- Where a process is in `buyOne` or in `settleOne` of the order. -/
inductive Phase where
  | idle
  /-- The order is inserted and the shop is asked to start it. -/
  | purchasing
  /-- The shop has named the order and the id is to be stored. -/
  | started (externalOrderId : Text)
  | waiting
  /-- A tick has listed the order as it was then. -/
  | listed (order : MarketplaceOrder) (now : Int)
  | naming (externalOrderId : Text) (expired : Bool)
  | named (externalOrderId : Text) (expired : Bool)
  | peeking (externalOrderId : Text) (expired : Bool)
  /-- `fulfillBoughtDelivery`, before the import, behind it, and before the final write. -/
  | delivered
  | imported (accountId : Nat)
  | provisioned (accountId : Nat)
  /-- The order is written as a success and is still to be counted. -/
  | fulfilled
  | failing (errorMessage : Text)
  | delaying (errorMessage : Text)
  deriving DecidableEq, Repr

/-- What a process hears between two statements. -/
inductive Lesson where
  | start (result : Except PurchaseError Text)
  | delivery (result : Except PurchaseError Unit)
  | resolve
  | configured (yes : Bool)
  | peek (result : Option MarketplaceDeliveryPeek)

/-- The catch of `buyOne`. -/
def afterError (error : PurchaseError) : Phase :=
  match classifyPurchaseError error with
  | (.pending, message) => .delaying message
  | (_, message) => .failing message

def noIdMessage : Text := "pending marketplace order has no Dark Shopping id after ttl".toList

def notConfiguredMessage : Text := "dark.shopping marketplace is not configured after ttl".toList

def stillMessage (externalOrderId status : Text) : Text :=
  "dark.shopping order ".toList ++ externalOrderId ++ " still ".toList ++ status

def afterTtl (still : Text) (ttlMs : Nat) : Text :=
  still ++ " after ".toList ++ Nat.toDigits 10 ttlMs ++ "ms".toList

/-- The next phase of a process which has heard from the shop or has to decide. A tick which gets
no answer goes on with its next order. -/
def learn (ttlMs : Nat) : Phase → Lesson → Option Phase
  | .purchasing, .start (.ok externalOrderId) => some (.started externalOrderId)
  | .purchasing, .start (.error error) => some (afterError error)
  | .waiting, .delivery (.ok ()) => some .delivered
  | .waiting, .delivery (.error error) => some (afterError error)
  | .listed order now, .resolve =>
      let expired := pendingOrderExpired order.createdAt now ttlMs
      match resolvePendingExternalId order with
      | none => some (if expired then .failing noIdMessage else .idle)
      | some externalOrderId =>
          some (if order.externalOrderId = some externalOrderId then .named externalOrderId expired
            else .naming externalOrderId expired)
  | .named externalOrderId expired, .configured yes =>
      some (if yes then .peeking externalOrderId expired
        else if expired then .failing notConfiguredMessage else .idle)
  | .peeking _ _, .peek none => some .idle
  | .peeking _ _, .peek (some .ready) => some .delivered
  | .peeking _ _, .peek (some (.failed errorMessage)) => some (.failing errorMessage)
  | .peeking externalOrderId expired, .peek (some (.pending status)) =>
      let still := stillMessage externalOrderId status
      some (if expired then .failing (afterTtl still ttlMs) else .delaying still)
  | _, _ => none

/-! ## The system -/

variable {Process : Type*} [DecidableEq Process]

/-- The row of the order, the processes, and how often the delivery was imported and counted. -/
structure State (Process : Type*) where
  order : Option MarketplaceOrder := none
  phase : Process → Phase := fun _ => .idle
  imports : Nat := 0
  fulfilments : Nat := 0

inductive Event (Process : Type*) where
  | buy (process : Process) (createdAt : Int)
  | learn (process : Process) (lesson : Lesson)
  | setExternalId (process : Process)
  | listPending (process : Process) (now : Int)
  | importAccount (process : Process) (accountId : Nat)
  | provision (process : Process)
  /-- `fulfillBoughtDelivery` throws; nothing in it asks the shop. -/
  | breakOff (process : Process) (errorMessage : Text)
  | finish (process : Process)
  | markPending (process : Process)
  | observe (process : Process)

namespace State

def setPhase (state : State Process) (process : Process) (phase : Phase) : State Process :=
  { state with phase := Function.update state.phase process phase }

/-- One `UPDATE` of the row, and the next phase of the process which made it. -/
def write (state : State Process) (process : Process) (phase : Phase)
    (statement : MarketplaceOrder → MarketplaceOrder) : State Process :=
  { state.setPhase process phase with order := state.order.map statement }

def status (state : State Process) : Option MarketplaceOrderStatus := state.order.map (·.status)

end State

/-- One statement of one process, or what it hears before the next one. -/
def next (ttlMs : Nat) (state : State Process) : Event Process → Option (State Process)
  | .buy process createdAt =>
      match state.phase process, state.order with
      | .idle, none =>
          some { state.setPhase process .purchasing with
            order := some (insertMarketplaceOrder createdAt) }
      | _, _ => none
  | .learn process lesson =>
      (Marketplace.learn ttlMs (state.phase process) lesson).map (state.setPhase process)
  | .setExternalId process =>
      match state.phase process with
      | .started externalOrderId =>
          some (state.write process .waiting (setMarketplaceExternalId externalOrderId))
      | .naming externalOrderId expired =>
          some (state.write process (.named externalOrderId expired)
            (setMarketplaceExternalId externalOrderId))
      | _ => none
  | .listPending process now =>
      match state.phase process, state.order with
      | .idle, some order =>
          if order.status = .pending then some (state.setPhase process (.listed order now))
          else none
      | _, _ => none
  | .importAccount process accountId =>
      match state.phase process with
      | .delivered =>
          some { state.setPhase process (.imported accountId) with imports := state.imports + 1 }
      | _ => none
  | .provision process =>
      match state.phase process with
      | .imported accountId => some (state.setPhase process (.provisioned accountId))
      | _ => none
  | .breakOff process errorMessage =>
      match state.phase process with
      | .delivered | .imported _ => some (state.setPhase process (.failing errorMessage))
      | _ => none
  | .finish process =>
      match state.phase process with
      | .provisioned accountId =>
          some (state.write process .fulfilled
            (finishMarketplaceOrder .success (some accountId) none))
      | .failing errorMessage =>
          some (state.write process .idle
            (finishMarketplaceOrder .failed none (some errorMessage)))
      | _ => none
  | .markPending process =>
      match state.phase process with
      | .delaying errorMessage =>
          some (state.write process .idle (markMarketplaceOrderPending errorMessage))
      | _ => none
  | .observe process =>
      match state.phase process with
      | .fulfilled =>
          some { state.setPhase process .idle with fulfilments := state.fulfilments + 1 }
      | _ => none

/-! ## What a step can do -/

/-- The steps of the system, each with its guard and its successor. -/
inductive Moves (ttlMs : Nat) (state : State Process) : Event Process → State Process → Prop where
  | buy {process : Process} {createdAt : Int} (idle : state.phase process = .idle)
      (absent : state.order = none) :
      Moves ttlMs state (.buy process createdAt)
        { state.setPhase process .purchasing with
          order := some (insertMarketplaceOrder createdAt) }
  | learn {process : Process} {lesson : Lesson} {phase : Phase}
      (learnt : Marketplace.learn ttlMs (state.phase process) lesson = some phase) :
      Moves ttlMs state (.learn process lesson) (state.setPhase process phase)
  | storeId {process : Process} {externalOrderId : Text}
      (started : state.phase process = .started externalOrderId) :
      Moves ttlMs state (.setExternalId process)
        (state.write process .waiting (setMarketplaceExternalId externalOrderId))
  | nameOrder {process : Process} {externalOrderId : Text} {expired : Bool}
      (naming : state.phase process = .naming externalOrderId expired) :
      Moves ttlMs state (.setExternalId process)
        (state.write process (.named externalOrderId expired)
          (setMarketplaceExternalId externalOrderId))
  | listPending {process : Process} {now : Int} {order : MarketplaceOrder}
      (idle : state.phase process = .idle) (found : state.order = some order)
      (pending : order.status = .pending) :
      Moves ttlMs state (.listPending process now) (state.setPhase process (.listed order now))
  | importAccount {process : Process} {accountId : Nat}
      (delivered : state.phase process = .delivered) :
      Moves ttlMs state (.importAccount process accountId)
        { state.setPhase process (.imported accountId) with imports := state.imports + 1 }
  | provision {process : Process} {accountId : Nat}
      (imported : state.phase process = .imported accountId) :
      Moves ttlMs state (.provision process) (state.setPhase process (.provisioned accountId))
  | breakOff {process : Process} {errorMessage : Text}
      (fulfilling : state.phase process = .delivered ∨
        ∃ accountId, state.phase process = .imported accountId) :
      Moves ttlMs state (.breakOff process errorMessage)
        (state.setPhase process (.failing errorMessage))
  | succeed {process : Process} {accountId : Nat}
      (provisioned : state.phase process = .provisioned accountId) :
      Moves ttlMs state (.finish process)
        (state.write process .fulfilled (finishMarketplaceOrder .success (some accountId) none))
  | fail {process : Process} {errorMessage : Text}
      (failing : state.phase process = .failing errorMessage) :
      Moves ttlMs state (.finish process)
        (state.write process .idle (finishMarketplaceOrder .failed none (some errorMessage)))
  | markPending {process : Process} {errorMessage : Text}
      (delaying : state.phase process = .delaying errorMessage) :
      Moves ttlMs state (.markPending process)
        (state.write process .idle (markMarketplaceOrderPending errorMessage))
  | observe {process : Process} (fulfilled : state.phase process = .fulfilled) :
      Moves ttlMs state (.observe process)
        { state.setPhase process .idle with fulfilments := state.fulfilments + 1 }

variable {ttlMs : Nat} {state after : State Process} {event : Event Process}

theorem moves_of_next (step : next ttlMs state event = some after) :
    Moves ttlMs state event after := by
  cases event with
  | buy process createdAt =>
      simp only [next] at step
      split at step
      · cases step
        exact .buy ‹_› ‹_›
      · cases step
  | learn process lesson =>
      obtain ⟨phase, learnt, rfl⟩ := Option.map_eq_some_iff.mp step
      exact .learn learnt
  | setExternalId process =>
      simp only [next] at step
      split at step
      · cases step
        exact .storeId ‹_›
      · cases step
        exact .nameOrder ‹_›
      · cases step
  | listPending process now =>
      simp only [next] at step
      split at step
      · split at step
        · cases step
          exact .listPending ‹_› ‹_› ‹_›
        · cases step
      · cases step
  | importAccount process accountId =>
      simp only [next] at step
      split at step
      · cases step
        exact .importAccount ‹_›
      · cases step
  | provision process =>
      simp only [next] at step
      split at step
      · cases step
        exact .provision ‹_›
      · cases step
  | breakOff process errorMessage =>
      simp only [next] at step
      split at step
      · cases step
        exact .breakOff (.inl ‹_›)
      · cases step
        exact .breakOff (.inr ⟨_, ‹_›⟩)
      · cases step
  | finish process =>
      simp only [next] at step
      split at step
      · cases step
        exact .succeed ‹_›
      · cases step
        exact .fail ‹_›
      · cases step
  | markPending process =>
      simp only [next] at step
      split at step
      · cases step
        exact .markPending ‹_›
      · cases step
  | observe process =>
      simp only [next] at step
      split at step
      · cases step
        exact .observe ‹_›
      · cases step

end Marketplace
end DotaCollector
