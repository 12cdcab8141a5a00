import Mathlib.Data.List.Infix
import DotaCollector.Library.Schedule

/-!
# The GC session of a worker

A worker keeps one logged-on Steam client in a module variable, and the promise of the attempt to
open one in another. Every call of `getGcSession` runs up to its next `await` without
interruption; between two of its steps other calls, the attempt itself, a disconnect or a
shutdown may change both variables. What the database, Steam and the clock answer is in the event
which carries the answer.
-/

namespace DotaCollector
namespace Gc
namespace Session

/-! ## Errors and what the code reads in them -/

inductive ErrorKind where
  | plain
  | sharedSecretBroken
  | noUsableProxy
  | missingProxy
  deriving DecidableEq, Repr

/-- A thrown error: its class and its message. -/
structure Failure where
  message : String
  kind : ErrorKind := .plain
  deriving DecidableEq, Repr

/-- A regular expression which is a plain sequence of character classes. -/
abbrev Pattern := List (Char → Bool)

/-- The characters of a phrase, read with the flag `i`. -/
def phrase (text : String) : Pattern :=
  text.toList.map fun expected actual => expected.toLower == actual.toLower

def Pattern.matchesAt : Pattern → List Char → Bool
  | [], _ => true
  | _ :: _, [] => false
  | expected :: pattern, actual :: text => expected actual && Pattern.matchesAt pattern text

/-- `RegExp.prototype.test`. -/
def Pattern.test (pattern : Pattern) (text : String) : Bool :=
  text.toList.tails.any pattern.matchesAt

def isWordChar (char : Char) : Bool := char.isAlphanum || char == '_'

/-- `/\bword\b/`, behind the character before. -/
def wordIn (word : List Char) : Option Char → List Char → Bool
  | _, [] => false
  | before, char :: text =>
      (before.all (!isWordChar ·) && word.isPrefixOf (char :: text) &&
        ((char :: text).drop word.length).head?.all (!isWordChar ·)) ||
      wordIn word (some char) text

def isNoUsableProxy (error : Failure) : Bool := error.kind == .noUsableProxy

def isGcWelcomeTimeout (error : Failure) : Bool :=
  (phrase "timeout waiting for Dota GC").test error.message

def isImapBasicAuthDisabled (error : Failure) : Bool :=
  (phrase "basic authentication is disabled").test error.message

def isProxyTransportError (error : Failure) : Bool :=
  let mentions (text : String) := (phrase text).test error.message
  if error.kind == .noUsableProxy then false
  else if error.kind == .missingProxy then false
  else if error.message == "" then false
  else if mentions "timeout waiting for Dota GC" then false
  else if mentions "no usable proxy" || mentions "Steam HTTP calls require a proxy" then false
  else if mentions "HTTP 429" || mentions "HTTP 403" ||
      (phrase "HTTP 5" ++ [Char.isDigit, Char.isDigit]).test error.message then false
  else
    mentions "proxy" || mentions "socks" || wordIn "407".toList none error.message.toList ||
      mentions "ECONNREFUSED" || mentions "ENOTFOUND" || mentions "EHOSTUNREACH" ||
      mentions "ENETUNREACH" || mentions "ECONNRESET" || mentions "EPIPE" ||
      mentions "tunnel" || mentions "CONNECT" || mentions "socket hang up" ||
      mentions "Unable to connect" || mentions "Could not resolve proxy"

/-! ## Accounts -/

/-- The columns of a listed account which choose, skip or connect it. -/
structure GcAccount where
  id : Nat
  sharedSecret : Option String := none
  hasApiKey : Bool := false
  email : Option String := none
  emailPassword : Option String := none
  emailImapHost : Option String := none
  refreshToken : Option String := none
  refreshTokenExpiresAt : Option Nat := none
  proxyId : Option Nat := none
  proxyUrl : Option String := none
  deriving DecidableEq, Repr

/-- What `ensureAccountProxy` and `rotateAccountProxy` answer. -/
structure BoundProxy where
  id : Nat
  url : String
  deriving DecidableEq, Repr

namespace GcAccount

def accountHasGuardSecret (account : GcAccount) : Bool := account.sharedSecret.any (· ≠ "")

def accountIsGcEligible (account : GcAccount) : Bool :=
  if account.accountHasGuardSecret then false else if account.hasApiKey then false else true

def accountCanReadEmailGuard (account : GcAccount) : Bool :=
  account.email.any (· ≠ "") && account.emailPassword.any (· ≠ "") &&
    account.emailImapHost.any (· ≠ "")

def withProxy (account : GcAccount) (proxy : BoundProxy) : GcAccount :=
  { account with proxyId := some proxy.id, proxyUrl := some proxy.url }

def withoutToken (account : GcAccount) : GcAccount :=
  { account with refreshToken := none, refreshTokenExpiresAt := none }

/-- Times in milliseconds; `jwtExpiresAt` reads the expiry out of a token which names one. -/
def refreshTokenUsable (jwtExpiresAt : String → Option Nat) (now : Nat)
    (account : GcAccount) : Bool :=
  match account.refreshToken with
  | none => false
  | some token =>
      if token == "" then false
      else match account.refreshTokenExpiresAt <|> jwtExpiresAt token with
        | none => true
        | some expiry => now + 60000 < expiry

end GcAccount

def selectGcPool (accounts : List GcAccount) : List GcAccount :=
  match accounts.filter GcAccount.accountIsGcEligible with
  | [] => accounts.filter fun account => !account.accountHasGuardSecret
  | dedicated => dedicated

/-! ## The attempt to open a session -/

inductive Mode where
  | refresh
  | password
  deriving DecidableEq, Repr

/-- The `await` at which the attempt on one account stands. -/
inductive Wait where
  /-- `bindStickyProxy`. -/
  | binding
  /-- `totpOffset`, with a client which has not logged on. -/
  | offset (mode : Mode)
  /-- `ready`, behind `logOn`. -/
  | welcome (mode : Mode)
  /-- The writes behind the welcome. -/
  | marking (mode : Mode)
  | clearing
  | rotating
  | recording (error : Failure)
  deriving DecidableEq, Repr

/-- The loop of `openGcSession`, at one account. -/
structure Attempt where
  /-- The account with the proxy and the token it has now. -/
  current : GcAccount
  /-- The client which was constructed last. -/
  client : Option Nat := none
  wait : Wait := .binding
  rest : List GcAccount
  imapPasswordAuthDead : Bool := false
  gcWelcomeFailed : Bool := false
  deriving Repr

structure BoundSession where
  account : GcAccount
  client : Nat
  deriving DecidableEq, Repr

/-- One call of `openGcSession`. -/
inductive Flight where
  | listing
  | trying (attempt : Attempt)
  | settled (result : Except Failure BoundSession)
  deriving Repr

def noUsableAccount : Failure where
  message := "no usable Steam account for GC — need a ready account with a password and no " ++
    "shared_secret"

/-! ## The state of a worker -/

/-- Where a call of `getGcSession` stands. The owner of an attempt is the call which began it. -/
inductive Caller where
  | checking
  | waiting (flight : Nat) (owner : Bool)
  | returned (bound : Option BoundSession)
  | threw (error : Failure)
  deriving DecidableEq, Repr

structure State where
  session : Option BoundSession := none
  connecting : Option Nat := none
  flights : List Flight := []
  callers : List Caller := []
  /-- The number of clients constructed. -/
  made : Nat := 0
  /-- The clients which have logged on and are not gone. -/
  online : List Nat := []
  deriving Repr

inductive Event where
  /-- Somebody calls `getGcSession`. -/
  | call
  /-- `isProxyUsable` answers. -/
  | checked (caller : Nat) (usable : Except Failure Bool)
  /-- A call goes on behind the settled promise. -/
  | resume (caller : Nat)
  | listed (flight : Nat) (accounts : Except Failure (List GcAccount))
  | bound (flight now : Nat) (proxy : Except Failure BoundProxy)
  | offset (flight now : Nat) (answer : Except Failure Unit)
  | welcome (flight now : Nat) (answer : Except Failure Unit)
  | marked (flight now : Nat) (answer : Except Failure Unit)
  | cleared (flight now : Nat) (answer : Except Failure Unit)
  | rotated (flight now : Nat) (proxy : Except Failure BoundProxy)
  | recorded (flight now : Nat) (answer : Except Failure Unit)
  /-- A `disconnected` or an `error` of a client. -/
  | gone (client : Nat)
  | closeGcSession
  deriving Repr

namespace State

def setFlight (state : State) (number : Nat) (flight : Flight) : State :=
  { state with flights := state.flights.set number flight }

def setCaller (state : State) (caller : Nat) (place : Caller) : State :=
  { state with callers := state.callers.set caller place }

/-- `logOff`, or a connection which is lost. -/
def dropClient (state : State) (client : Nat) : State :=
  { state with online := state.online.filter (· ≠ client) }

/-- Clearing `session`, with its client logged off. -/
def dropSession (state : State) (bound : BoundSession) : State :=
  { state.dropClient bound.client with session := none }

/-- `getGcSession` behind its look at the session. -/
def joinOrOpen (state : State) (caller : Nat) : State :=
  match state.connecting with
  | some flight => state.setCaller caller (.waiting flight false)
  | none =>
      { state.setCaller caller (.waiting state.flights.length true) with
        connecting := some state.flights.length
        flights := state.flights ++ [.listing] }

section Flights

variable (jwtExpiresAt : String → Option Nat)

/-- The loop of `openGcSession`: go on with the first account which is not skipped. -/
def nextAccount (now : Nat) (state : State) (number : Nat) (accounts : List GcAccount)
    (lastError : Failure) (imapPasswordAuthDead gcWelcomeFailed : Bool) : State :=
  let skipped (account : GcAccount) : Bool :=
    (imapPasswordAuthDead && account.accountCanReadEmailGuard &&
        !account.refreshTokenUsable jwtExpiresAt now) || gcWelcomeFailed
  match accounts.dropWhile skipped with
  | [] => state.setFlight number (.settled (.error lastError))
  | account :: rest =>
      state.setFlight number
        (.trying { current := account, rest, imapPasswordAuthDead, gcWelcomeFailed })

/-- The `catch` of `openGcSession`. -/
def accountFailed (state : State) (number : Nat) (attempt : Attempt) (error : Failure) : State :=
  if isNoUsableProxy error then state.setFlight number (.settled (.error error))
  else state.setFlight number (.trying { attempt with wait := .recording error })

/-- The outer `catch` of `connectAccount`. -/
def attemptFailed (state : State) (number : Nat) (attempt : Attempt) (error : Failure) : State :=
  if isProxyTransportError error && attempt.current.proxyId.isSome then
    state.setFlight number (.trying { attempt with wait := .rotating })
  else state.accountFailed number attempt error

/-- What follows a failed `connect`. -/
def connectFailed (state : State) (number : Nat) (attempt : Attempt) (mode : Mode)
    (error : Failure) : State :=
  match mode with
  | .password => state.attemptFailed number attempt error
  | .refresh =>
      if isGcWelcomeTimeout error || isProxyTransportError error then
        state.attemptFailed number attempt error
      else state.setFlight number (.trying { attempt with wait := .clearing })

/-- `connect`, up to its first `await`. -/
def connect (state : State) (number : Nat) (attempt : Attempt) (mode : Mode) : State :=
  if attempt.current.proxyUrl.any (· ≠ "") then
    { state with made := state.made + 1 }.setFlight number
      (.trying { attempt with client := some state.made, wait := .offset mode })
  else
    state.connectFailed number attempt mode
      { message := "GC session requires a proxy — none bound to this account"
        kind := .noUsableProxy }

/-- The head of the loop of `connectAccount`. -/
def connectAccount (now : Nat) (state : State) (number : Nat) (attempt : Attempt) : State :=
  if attempt.current.refreshTokenUsable jwtExpiresAt now then state.connect number attempt .refresh
  else state.connect number attempt .password

def listed (state : State) (number : Nat) (accounts : List GcAccount) : State :=
  match selectGcPool accounts with
  | [] => state.setFlight number (.settled (.error noUsableAccount))
  | account :: rest => state.setFlight number (.trying { current := account, rest })

/-- One attempt goes on behind its `await`. -/
def goOn (state : State) (number : Nat) (attempt : Attempt) : Event → Option State
  | .bound _ now proxy =>
      if attempt.wait = .binding then
        match proxy with
        | .error error => some (state.accountFailed number attempt error)
        | .ok proxy => some (state.connectAccount jwtExpiresAt now number
            { attempt with current := attempt.current.withProxy proxy })
      else none
  | .offset _ _ answer =>
      match attempt.wait, attempt.client with
      | .offset mode, some client =>
          match answer with
          | .error error => some (state.connectFailed number attempt mode error)
          | .ok _ => some ({ state with online := client :: state.online }.setFlight number
              (.trying { attempt with wait := .welcome mode }))
      | _, _ => none
  | .welcome _ _ answer =>
      match attempt.wait, attempt.client with
      | .welcome mode, some client =>
          match answer with
          | .error error =>
              some ((state.dropClient client).connectFailed number attempt mode error)
          -- the welcome comes over a connection which stands
          | .ok _ =>
              if client ∈ state.online then
                some (state.setFlight number (.trying { attempt with wait := .marking mode }))
              else none
      | _, _ => none
  | .marked _ _ answer =>
      match attempt.wait, attempt.client with
      | .marking mode, some client =>
          match answer with
          | .error error =>
              some ((state.dropClient client).connectFailed number attempt mode error)
          | .ok _ =>
              some ({ state with session := some ⟨attempt.current, client⟩ }.setFlight number
                (.settled (.ok ⟨attempt.current, client⟩)))
      | _, _ => none
  | .cleared _ _ answer =>
      if attempt.wait = .clearing then
        match answer with
        | .error error => some (state.attemptFailed number attempt error)
        | .ok _ => some (state.connect number
            { attempt with current := attempt.current.withoutToken } .password)
      else none
  | .rotated _ now proxy =>
      if attempt.wait = .rotating then
        match proxy with
        | .error error => some (state.accountFailed number attempt error)
        | .ok proxy => some (state.connectAccount jwtExpiresAt now number
            { attempt with current := attempt.current.withProxy proxy })
      else none
  | .recorded _ now answer =>
      match attempt.wait with
      | .recording error =>
          match answer with
          | .error thrown => some (state.setFlight number (.settled (.error thrown)))
          | .ok _ => some (state.nextAccount jwtExpiresAt now number attempt.rest error
              (attempt.imapPasswordAuthDead || isImapBasicAuthDisabled error)
              (attempt.gcWelcomeFailed || isGcWelcomeTimeout error))
      | _ => none
  | _ => none

/-- The attempt which an event is about. -/
def flightOf : Event → Option Nat
  | .bound flight _ _ | .offset flight _ _ | .welcome flight _ _ | .marked flight _ _
  | .cleared flight _ _ | .rotated flight _ _ | .recorded flight _ _ => some flight
  | _ => none

def next (state : State) (event : Event) : Option State :=
  match event with
  | .call =>
      let arrived := { state with callers := state.callers ++ [.checking] }
      if state.session.isSome then some arrived
      else some (arrived.joinOrOpen state.callers.length)
  | .checked caller usable =>
      if state.callers[caller]? = some .checking then
        match usable with
        | .error error => some (state.setCaller caller (.threw error))
        | .ok true => some (state.setCaller caller (.returned state.session))
        | .ok false =>
            match state.session with
            -- `session.account` of a session which is null by now
            | none => some (state.setCaller caller
                (.threw { message := "null is not an object (evaluating 'session.account')" }))
            | some bound => some ((state.dropSession bound).joinOrOpen caller)
      else none
  | .resume caller =>
      match state.callers[caller]? with
      | some (.waiting flight owner) =>
          match state.flights[flight]? with
          | some (.settled result) =>
              let place := match result with
                | .ok bound => .returned (some bound)
                | .error error => .threw error
              let resumed := state.setCaller caller place
              if owner then some { resumed with connecting := none } else some resumed
          | _ => none
      | _ => none
  | .listed flight accounts =>
      match state.flights[flight]? with
      | some .listing =>
          match accounts with
          | .error error => some (state.setFlight flight (.settled (.error error)))
          | .ok accounts => some (state.listed flight accounts)
      | _ => none
  | .gone client =>
      let left := state.dropClient client
      if state.session.any (·.client = client) then some { left with session := none }
      else some left
  | .closeGcSession =>
      match state.session with
      | none => some state
      | some bound => some (state.dropSession bound)
  | event =>
      match flightOf event with
      | none => none
      | some flight =>
          match state.flights[flight]? with
          | some (.trying attempt) => state.goOn jwtExpiresAt flight attempt event
          | _ => none

end Flights

end State

end Session
end Gc
end DotaCollector
