import DotaCollector.Gc.Session
import DotaCollector.Resources.AttemptWindow

/-!
# Calls of the Steam Web API

A call makes up to four requests through the proxy of its key. What a request comes to is charged
to the key or to the proxy: an answer is a success of both, a broken connection a failure of the
proxy, which is then replaced, and any other failure one of the key, unless Steam only asks to wait.
The stamp of the slot which a request waits for and the log of the requests are left out.
-/

namespace DotaCollector
namespace Steam
namespace ApiClient

open Gc.Session (Failure BoundProxy isProxyTransportError)
open Resources.Attempts (Input ResourceKey)

/-! ## The functions -/

structure SteamApiError where
  message : String
  status : Option Nat := none

inductive Thrown where
  | steamApi (error : SteamApiError)
  | other (failure : Failure)

namespace Thrown

def status : Thrown → Option Nat
  | .steamApi error => error.status
  | .other _ => none

/-- The error as `isProxyTransportError` reads it. -/
def failure : Thrown → Failure
  | .steamApi error => { message := error.message }
  | .other failure => failure

def message (error : Thrown) : String := error.failure.message

def toSteamApiError : Thrown → SteamApiError
  | .steamApi error => error
  | .other failure => { message := failure.message }

def missesProxy (error : Thrown) : Bool :=
  error.failure.kind = .missingProxy || error.failure.kind = .noUsableProxy

def retryableHttp (error : Thrown) : Bool :=
  error.status.any fun status => status = 429 || 500 ≤ status

end Thrown

/-- The key and the proxy of a call; a rotation puts another proxy in. -/
structure SteamRequestContext where
  keyId : Int
  proxy : BoundProxy

/-- What comes of a request: the connection or the reading of the text fails, or there is a status
and a text, which is JSON or not. -/
inductive Reply (Body : Type) where
  | threw (failure : Failure)
  | response (status : Nat) (body : Except String Body)

variable {Body : Type}

/-- What a call writes about the attempts and the limits of its key and its proxies, and about the
proxy which is bound to the key. -/
inductive Write where
  | record (input : Input)
  | clearApiKeyRateLimit
  /-- `disableResource` with `giveUp`. -/
  | giveUp (message : String)
  | markApiKeyRateLimited (message : String)
  | bindApiKeyProxy (proxyId : Nat)
  | markProxyActive (proxyId : Nat)
  deriving DecidableEq

/-- What a call does, one step behind the other. -/
inductive Step (Body : Type) where
  | request (proxy : BoundProxy) (reply : Reply Body)
  | write (write : Write)
  | rotated (next : BoundProxy)
  | sleep (ms : Nat)

def proxyKey (proxy : BoundProxy) : ResourceKey := (.proxy, proxy.id)

def SteamRequestContext.key (ctx : SteamRequestContext) : ResourceKey := (.apiKey, ctx.keyId)

/-- What `rotateDeadApiKeyProxy` finds: another proxy, or only the dead one, which is usable none
the less, or none. -/
inductive Rotation where
  | picked (next : BoundProxy)
  | kept (proxy : BoundProxy)
  | failed (failure : Failure)

def Rotation.proxy : Rotation → Except Failure BoundProxy
  | .picked next => .ok next
  | .kept proxy => .ok proxy
  | .failed failure => .error failure

def Rotation.writes : Rotation → List Write
  | .picked next => [.bindApiKeyProxy next.id, .markProxyActive next.id]
  | .kept _ | .failed _ => []

/-- What the rest of the world does: the replies, and what rotations find. -/
structure World (Body : Type) where
  reply : Nat → Reply Body
  rotation : Nat → Rotation
  proxyHostPort : String → String

variable (world : World Body)

def getJsonOnce (ctx : SteamRequestContext) (reply : Reply Body) :
    List (Step Body) × Except Thrown Body :=
  match reply with
  | .threw failure => ([.request ctx.proxy reply], .error (.other failure))
  | .response status body =>
      let asked := [Step.request ctx.proxy reply]
      if status = 407 then
        (asked, .error (.other
          { message := "proxy HTTP 407 for " ++ world.proxyHostPort ctx.proxy.url }))
      else
        let waited :=
          if status = 429 then [Step.write (.record ⟨proxyKey ctx.proxy, true, none⟩)] else []
        if ¬ (200 ≤ status ∧ status ≤ 299) then
          (asked ++ waited,
            .error (.steamApi { message := "steam HTTP " ++ toString status, status }))
        else
          match body with
          | .error message => (asked, .error (.steamApi { message }))
          | .ok body =>
              (asked ++ [.write (.record ⟨proxyKey ctx.proxy, true, none⟩),
                .write (.record ⟨ctx.key, true, none⟩), .write .clearApiKeyRateLimit], .ok body)

def delay (error : Thrown) (attempt : Nat) : Nat :=
  (if error.retryableHttp then 1000 else 500) * 2 ^ attempt

/-- The loop over the attempts, with so many of them left. -/
def attempts : Nat → Nat → SteamRequestContext → Option SteamApiError →
    List (Step Body) × Except Thrown Body
  | 0, _, _, none => ([], .error (.steamApi { message := "steam request failed" }))
  | 0, _, _, some error =>
      (if error.status = some 429 then [.write (.markApiKeyRateLimited error.message)] else [],
        .error (.steamApi error))
  | left + 1, attempt, ctx, _ =>
      match getJsonOnce world ctx (world.reply attempt) with
      | (steps, .ok body) => (steps, .ok body)
      | (steps, .error error) =>
          if error.status = some 403 then
            (steps ++ [.write (.giveUp error.message)], .error error)
          else if error.missesProxy then (steps, .error (.steamApi error.toSteamApiError))
          else if isProxyTransportError error.failure then
            let blamed := steps ++
              (.record ⟨proxyKey ctx.proxy, false, some error.message⟩ ::
                (world.rotation attempt).writes).map Step.write
            match (world.rotation attempt).proxy with
            | .error failure => (blamed, .error (.other failure))
            | .ok next =>
                let rest := attempts left (attempt + 1) { ctx with proxy := next }
                  (some error.toSteamApiError)
                (blamed ++ (.rotated next :: .sleep (delay error attempt) :: rest.1), rest.2)
          else
            let blamed := steps ++
              if error.status = some 429 then []
              else [.write (.record ⟨ctx.key, false, some error.message⟩)]
            let rest := attempts left (attempt + 1) ctx (some error.toSteamApiError)
            (blamed ++ (.sleep (delay error attempt) :: rest.1), rest.2)

def getJson (ctx : SteamRequestContext) : List (Step Body) × Except Thrown Body :=
  attempts world 4 0 ctx none

/-! ## One request -/

def outcome (ctx : SteamRequestContext) (reply : Reply Body) : Except Thrown Body :=
  (getJsonOnce world ctx reply).2

/-- What a request writes by itself. -/
def settled (ctx : SteamRequestContext) : Except Thrown Body → List (Step Body)
  | .ok _ => [.write (.record ⟨proxyKey ctx.proxy, true, none⟩),
      .write (.record ⟨ctx.key, true, none⟩), .write .clearApiKeyRateLimit]
  | .error error =>
      if error.status = some 429 then [.write (.record ⟨proxyKey ctx.proxy, true, none⟩)] else []

theorem getJsonOnce_eq (ctx : SteamRequestContext) (reply : Reply Body) :
    getJsonOnce world ctx reply =
      (.request ctx.proxy reply :: settled ctx (outcome world ctx reply),
        outcome world ctx reply) := by
  cases reply with
  | threw failure => rfl
  | response status body =>
      unfold outcome getJsonOnce
      dsimp only
      by_cases auth : status = 407
      · subst auth
        rfl
      · by_cases good : 200 ≤ status ∧ status ≤ 299
        · rw [if_neg auth, if_neg (not_not_intro good)]
          cases body with
          | error message => rfl
          | ok body => rfl
        · rw [if_neg auth, if_pos good]
          by_cases wait : status = 429
          · subst wait
            rfl
          · have other : some status ≠ some 429 := fun same => wait (Option.some.inj same)
            simp [settled, Thrown.status, wait]

/-- How the loop takes an error. -/
inductive Verdict where
  | refused
  | noProxy
  | transport
  | throttled
  | failed
  deriving DecidableEq

def Thrown.verdict (error : Thrown) : Verdict :=
  if error.status = some 403 then .refused
  else if error.missesProxy then .noProxy
  else if isProxyTransportError error.failure then .transport
  else if error.status = some 429 then .throttled
  else .failed

/-- An error behind which the loop goes on. -/
def Verdict.again : Verdict → Bool
  | .refused | .noProxy => false
  | .transport | .throttled | .failed => true

variable {world} {ctx : SteamRequestContext} {left attempt : Nat} {last : Option SteamApiError}

/-- Only Steam's own answer has the status of a limit. -/
theorem status_iff_throttled {reply : Reply Body} {error : Thrown}
    (found : outcome world ctx reply = .error error) :
    error.status = some 429 ↔ error.verdict = .throttled := by
  constructor
  · intro limit
    cases reply with
    | threw failure =>
        cases found
        cases limit
    | response status body =>
        unfold outcome getJsonOnce at found
        dsimp only at found
        by_cases auth : status = 407
        · rw [if_pos auth] at found
          cases found
          cases limit
        rw [if_neg auth] at found
        by_cases good : 200 ≤ status ∧ status ≤ 299
        · rw [if_neg (not_not_intro good)] at found
          cases body with
          | error message =>
              cases found
              cases limit
          | ok body => cases found
        · rw [if_pos good] at found
          cases found
          cases Option.some.inj limit
          decide
  · intro verdict
    rw [Thrown.verdict] at verdict
    split_ifs at verdict with refused homeless transport limit
    exact limit

/-! ## The course of a call -/

/-- A request: its proxy and its reply. -/
abbrev Request (Body : Type) := BoundProxy × Reply Body

def Step.request? : Step Body → Option (Request Body)
  | .request proxy reply => some (proxy, reply)
  | _ => none

def Step.write? : Step Body → Option Write
  | .write written => some written
  | _ => none

def requests (steps : List (Step Body)) : List (Request Body) := steps.filterMap Step.request?

def writes (steps : List (Step Body)) : List Write := steps.filterMap Step.write?

/-- What comes of a request under a key. -/
def comes (world : World Body) (keyId : Int) (request : Request Body) : Except Thrown Body :=
  outcome world ⟨keyId, request.1⟩ request.2

/-- What the request of an attempt is charged with, the rotation behind it included. -/
def charges (world : World Body) (keyId : Int) (attempt : Nat) (request : Request Body) :
    List Write :=
  match comes world keyId request with
  | .ok _ => [.record ⟨proxyKey request.1, true, none⟩, .record ⟨(.apiKey, keyId), true, none⟩,
      .clearApiKeyRateLimit]
  | .error error =>
      match error.verdict with
      | .throttled => [.record ⟨proxyKey request.1, true, none⟩]
      | .transport => .record ⟨proxyKey request.1, false, some error.message⟩ ::
          (world.rotation attempt).writes
      | .failed => [.record ⟨(.apiKey, keyId), false, some error.message⟩]
      | .refused => [.giveUp error.message]
      | .noProxy => []

/-- What some requests are charged with, the first of them at an attempt of a number. -/
def allCharges (world : World Body) (keyId : Int) : Nat → List (Request Body) → List Write
  | _, [] => []
  | attempt, request :: asked =>
      charges world keyId attempt request ++ allCharges world keyId (attempt + 1) asked

/-- What the loop writes behind its last attempt. -/
def closing (error : Thrown) : List Write :=
  if error.verdict = .throttled then [.markApiKeyRateLimited error.message] else []

/-- The proxy behind a request which the loop goes on from. -/
def Passes (world : World Body) (attempt : Nat) (proxy : BoundProxy) (error : Thrown)
    (next : BoundProxy) : Prop :=
  if error.verdict = .transport then (world.rotation attempt).proxy = .ok next else next = proxy

/-- What an error which the loop stops at leaves to the caller. -/
def Stops (world : World Body) (attempt : Nat) (error : Thrown) (result : Thrown) : Prop :=
  match error.verdict with
  | .refused => result = error
  | .noProxy => result = .steamApi error.toSteamApiError
  | .transport =>
      ∃ failure, (world.rotation attempt).proxy = .error failure ∧ result = .other failure
  | .throttled | .failed => False

/-- The ways through the loop, from the attempt of a number on: the requests, the writes and the
result. -/
inductive Course (world : World Body) (keyId : Int) :
    Nat → Nat → BoundProxy → List (Request Body) → List Write → Except Thrown Body → Prop
  | answers {left attempt : Nat} {proxy : BoundProxy} {body : Body}
      (found : comes world keyId (proxy, world.reply attempt) = .ok body) :
      Course world keyId (left + 1) attempt proxy [(proxy, world.reply attempt)]
        (charges world keyId attempt (proxy, world.reply attempt)) (.ok body)
  | stops {left attempt : Nat} {proxy : BoundProxy} {error result : Thrown}
      (found : comes world keyId (proxy, world.reply attempt) = .error error)
      (stops : Stops world attempt error result) :
      Course world keyId (left + 1) attempt proxy [(proxy, world.reply attempt)]
        (charges world keyId attempt (proxy, world.reply attempt)) (.error result)
  | spent {attempt : Nat} {proxy next : BoundProxy} {error : Thrown}
      (found : comes world keyId (proxy, world.reply attempt) = .error error)
      (again : error.verdict.again = true) (passes : Passes world attempt proxy error next) :
      Course world keyId 1 attempt proxy [(proxy, world.reply attempt)]
        (charges world keyId attempt (proxy, world.reply attempt) ++ closing error)
        (.error (.steamApi error.toSteamApiError))
  | goesOn {left attempt : Nat} {proxy next : BoundProxy} {error : Thrown}
      {asked : List (Request Body)} {written : List Write} {result : Except Thrown Body}
      (found : comes world keyId (proxy, world.reply attempt) = .error error)
      (again : error.verdict.again = true) (passes : Passes world attempt proxy error next)
      (rest : Course world keyId left (attempt + 1) next asked written result) :
      Course world keyId (left + 1) attempt proxy ((proxy, world.reply attempt) :: asked)
        (charges world keyId attempt (proxy, world.reply attempt) ++ written) result

@[simp]
theorem requests_nil : requests ([] : List (Step Body)) = [] := rfl

@[simp]
theorem writes_nil : writes ([] : List (Step Body)) = [] := rfl

@[simp]
theorem requests_cons (step : Step Body) (steps : List (Step Body)) :
    requests (step :: steps) = step.request?.toList ++ requests steps := by
  cases step <;> rfl

@[simp]
theorem writes_cons (step : Step Body) (steps : List (Step Body)) :
    writes (step :: steps) = step.write?.toList ++ writes steps := by
  cases step <;> rfl

@[simp]
theorem requests_append (front back : List (Step Body)) :
    requests (front ++ back) = requests front ++ requests back := List.filterMap_append

@[simp]
theorem writes_append (front back : List (Step Body)) :
    writes (front ++ back) = writes front ++ writes back := List.filterMap_append

@[simp]
theorem requests_map_write (written : List Write) :
    requests (written.map .write : List (Step Body)) = [] := by
  induction written with
  | nil => rfl
  | cons write written ih => exact ih

@[simp]
theorem writes_map_write (written : List Write) :
    writes (written.map .write : List (Step Body)) = written := by
  induction written with
  | nil => rfl
  | cons write written ih => exact congrArg (write :: ·) ih

@[simp]
theorem requests_settled (ctx : SteamRequestContext) (result : Except Thrown Body) :
    requests (settled ctx result) = [] := by
  cases result with
  | ok body => rfl
  | error error =>
      rw [settled]
      split_ifs <;> rfl

theorem writes_settled_error {reply : Reply Body} {error : Thrown}
    (found : outcome world ctx reply = .error error) :
    writes (settled ctx (.error error : Except Thrown Body)) =
      if error.verdict = .throttled then [.record ⟨proxyKey ctx.proxy, true, none⟩] else [] := by
  simp only [settled, status_iff_throttled found]
  split_ifs <;> rfl

/-- One attempt, given the course of what the loop does behind it. -/
theorem course_succ (last : Option SteamApiError)
    (more : ∀ {error : Thrown} {next : BoundProxy},
      comes world ctx.keyId (ctx.proxy, world.reply attempt) = .error error →
      error.verdict.again = true → Passes world attempt ctx.proxy error next →
      let rest := attempts world left (attempt + 1) { ctx with proxy := next }
        (some error.toSteamApiError)
      Course world ctx.keyId (left + 1) attempt ctx.proxy
        ((ctx.proxy, world.reply attempt) :: requests rest.1)
        (charges world ctx.keyId attempt (ctx.proxy, world.reply attempt) ++ writes rest.1)
        rest.2) :
    let run := attempts world (left + 1) attempt ctx last
    Course world ctx.keyId (left + 1) attempt ctx.proxy (requests run.1) (writes run.1)
      run.2 := by
  intro run
  have unfolded : run = attempts world (left + 1) attempt ctx last := rfl
  rw [attempts, getJsonOnce_eq] at unfolded
  cases found : outcome world ctx (world.reply attempt) with
  | ok body =>
      rw [found] at unfolded
      rw [unfolded]
      have course : Course world ctx.keyId (left + 1) attempt ctx.proxy _ _ _ := .answers found
      simpa [charges, comes, found, settled, Step.request?, Step.write?,
        SteamRequestContext.key] using course
  | error error =>
      rw [found] at unfolded
      dsimp only at unfolded
      have settled := writes_settled_error found
      split_ifs at unfolded with refused homeless transport throttled
      · have verdict : error.verdict = .refused := if_pos refused
        rw [unfolded]
        have course : Course world ctx.keyId (left + 1) attempt ctx.proxy _ _ _ :=
          .stops found (by rw [Stops, verdict])
        simpa [charges, comes, found, settled, verdict, Step.request?, Step.write?] using course
      · have verdict : error.verdict = .noProxy := by
          rw [Thrown.verdict, if_neg refused, if_pos homeless]
        rw [unfolded]
        have course : Course world ctx.keyId (left + 1) attempt ctx.proxy _ _ _ :=
          .stops found (by rw [Stops, verdict])
        simpa [charges, comes, found, settled, verdict, Step.request?, Step.write?] using course
      · have verdict : error.verdict = .transport := by
          rw [Thrown.verdict, if_neg refused, if_neg homeless, if_pos transport]
        cases rotation : (world.rotation attempt).proxy with
        | error failure =>
            rw [rotation] at unfolded
            rw [unfolded]
            have course : Course world ctx.keyId (left + 1) attempt ctx.proxy _ _ _ :=
              .stops found (by rw [Stops, verdict]; exact ⟨failure, rotation, rfl⟩)
            simpa [charges, comes, found, settled, verdict, Step.request?, Step.write?] using course
        | ok next =>
            rw [rotation] at unfolded
            rw [unfolded]
            have course := more found (by rw [verdict]; rfl)
              (by rw [Passes, if_pos verdict, rotation])
            simpa [charges, comes, found, settled, verdict, Step.request?, Step.write?] using course
      · have verdict : error.verdict = .throttled := by
          rw [Thrown.verdict, if_neg refused, if_neg homeless, if_neg transport, if_pos throttled]
        rw [unfolded]
        have course := more found (by rw [verdict]; rfl) (by rw [Passes, verdict]; rfl)
        simpa [charges, comes, found, settled, verdict, Step.request?, Step.write?] using course
      · have verdict : error.verdict = .failed := by
          rw [Thrown.verdict, if_neg refused, if_neg homeless, if_neg transport, if_neg throttled]
        rw [unfolded]
        have course := more found (by rw [verdict]; rfl) (by rw [Passes, verdict]; rfl)
        simpa [charges, comes, found, settled, verdict, Step.request?, Step.write?,
          SteamRequestContext.key] using course

theorem course_attempts (world : World Body) (left attempt : Nat) (ctx : SteamRequestContext)
    (last : Option SteamApiError) :
    let run := attempts world (left + 1) attempt ctx last
    Course world ctx.keyId (left + 1) attempt ctx.proxy (requests run.1) (writes run.1)
      run.2 := by
  induction left generalizing attempt ctx last with
  | zero =>
      apply course_succ
      intro error next found again passes rest
      have course := Course.spent found again passes
      have limit : error.toSteamApiError.status = some 429 ↔ error.verdict = .throttled := by
        rw [← status_iff_throttled found]
        cases error <;> rfl
      have message : error.toSteamApiError.message = error.message := by
        cases error <;> rfl
      simp only [rest, attempts, limit, message]
      rw [closing] at course
      split_ifs at course ⊢ with throttled
      · simpa [Step.request?, Step.write?] using course
      · simpa using course
  | succ left ih =>
      apply course_succ
      intro error next found again passes rest
      exact .goesOn found again passes (ih (attempt + 1) { ctx with proxy := next } _)

section Course

variable {keyId : Int} {proxy : BoundProxy} {asked : List (Request Body)} {written : List Write}
  {result : Except Thrown Body}

theorem Course.length_le (course : Course world keyId left attempt proxy asked written result) :
    asked.length ≤ left := by
  induction course with
  | answers | stops => exact Nat.succ_le_succ (Nat.zero_le _)
  | spent => exact Nat.le_refl _
  | goesOn found again passes rest ih => exact Nat.succ_le_succ ih

theorem Course.head (course : Course world keyId left attempt proxy asked written result) :
    asked.head? = some (proxy, world.reply attempt) := by
  cases course <;> rfl

theorem Course.reply (course : Course world keyId left attempt proxy asked written result)
    {place : Nat} {request : Request Body} (found : asked[place]? = some request) :
    request.2 = world.reply (attempt + place) := by
  induction course generalizing place with
  | answers | stops | spent =>
      cases place with
      | zero =>
          cases found
          rfl
      | succ place => cases found
  | goesOn _ _ _ _ ih =>
      cases place with
      | zero =>
          cases found
          rfl
      | succ place =>
          rw [ih found]
          exact congrArg world.reply (by omega)

/-- Behind a request which is not the last one the loop has gone on. -/
theorem Course.passes (course : Course world keyId left attempt proxy asked written result)
    {place : Nat} {request next : Request Body} (found : asked[place]? = some request)
    (behind : asked[place + 1]? = some next) :
    ∃ error, comes world keyId request = .error error ∧ error.verdict.again = true ∧
      Passes world (attempt + place) request.1 error next.1 := by
  induction course generalizing place with
  | answers | stops | spent => cases behind
  | goesOn own again passes rest ih =>
      cases place with
      | zero =>
          have head := rest.head
          rw [List.head?_eq_getElem?] at head
          cases found
          cases head.symm.trans behind
          exact ⟨_, own, again, passes⟩
      | succ place =>
          obtain ⟨error, comes, again, passes⟩ := ih found behind
          refine ⟨error, comes, again, ?_⟩
          rwa [Nat.add_right_comm] at passes

/-- The last request, with all that the call has written. -/
theorem Course.ends (course : Course world keyId left attempt proxy asked written result) :
    ∃ front request, asked = front ++ [request] ∧
      match comes world keyId request with
      | .ok body => result = .ok body ∧ written = allCharges world keyId attempt asked
      | .error error =>
          (∃ thrown, Stops world (attempt + front.length) error thrown ∧ result = .error thrown ∧
            written = allCharges world keyId attempt asked) ∨
          (asked.length = left ∧ error.verdict.again = true ∧
            result = .error (.steamApi error.toSteamApiError) ∧
            written = allCharges world keyId attempt asked ++ closing error) := by
  induction course with
  | answers found =>
      refine ⟨[], _, rfl, ?_⟩
      rw [found]
      exact ⟨rfl, (List.append_nil _).symm⟩
  | stops found stops =>
      refine ⟨[], _, rfl, ?_⟩
      rw [found]
      exact .inl ⟨_, stops, rfl, (List.append_nil _).symm⟩
  | spent found again passes =>
      refine ⟨[], _, rfl, ?_⟩
      rw [found]
      exact .inr ⟨rfl, again, rfl, by rw [allCharges, allCharges, List.append_nil]⟩
  | @goesOn left attempt proxy next error asked written result found again passes rest ih =>
      obtain ⟨front, request, rfl, ends⟩ := ih
      refine ⟨(proxy, world.reply attempt) :: front, request, rfl, ?_⟩
      cases comes : comes world keyId request with
      | ok body =>
          rw [comes] at ends
          exact ⟨ends.1, by rw [ends.2, allCharges]⟩
      | error error =>
          rw [comes] at ends
          rcases ends with ⟨thrown, stops, result, written⟩ | ⟨full, again, result, written⟩
          · rw [Nat.add_right_comm] at stops
            exact .inl ⟨thrown, stops, result, by rw [written, allCharges]⟩
          · refine .inr ⟨congrArg Nat.succ full, again, result, ?_⟩
            rw [written, allCharges, List.append_assoc]

end Course

/-- A call makes at most four requests, the first through the proxy of its key and each further one
through the same proxy or, behind a broken connection, through the one which has replaced it. It
goes on only behind errors which allow it, and its last request decides the result. All that it
writes of attempts, of limits and of the proxy of its key are the charges of its requests, in their
order and with the rotations behind them, and behind four requests of which Steam has put off the
last one the mark of the limit. -/
theorem getJson_course (world : World Body) (ctx : SteamRequestContext) :
    let (steps, result) := getJson world ctx
    let asked := requests steps
    asked.length ≤ 4 ∧ asked.head? = some (ctx.proxy, world.reply 0) ∧
      (∀ place request next, asked[place]? = some request → asked[place + 1]? = some next →
        next.2 = world.reply (place + 1) ∧
          ∃ error, comes world ctx.keyId request = .error error ∧ error.verdict.again = true ∧
            if error.verdict = .transport then (world.rotation place).proxy = .ok next.1
            else next.1 = request.1) ∧
      ∃ front request, asked = front ++ [request] ∧
        match comes world ctx.keyId request with
        | .ok body => result = .ok body ∧ writes steps = allCharges world ctx.keyId 0 asked
        | .error error =>
            (∃ thrown, Stops world front.length error thrown ∧ result = .error thrown ∧
              writes steps = allCharges world ctx.keyId 0 asked) ∨
            (asked.length = 4 ∧ error.verdict.again = true ∧
              result = .error (.steamApi error.toSteamApiError) ∧
              writes steps = allCharges world ctx.keyId 0 asked ++ closing error) := by
  have course := course_attempts world 3 0 ctx none
  refine ⟨course.length_le, course.head, fun place request next found behind => ?_, ?_⟩
  · obtain ⟨error, comes, again, passes⟩ := course.passes found behind
    rw [Nat.zero_add] at passes
    exact ⟨by rw [course.reply behind, Nat.zero_add], error, comes, again, passes⟩
  · obtain ⟨front, request, shape, ends⟩ := course.ends
    rw [Nat.zero_add] at ends
    exact ⟨front, request, shape, ends⟩

/-! ## Who is to blame -/

/-- A request by which a resource may be disabled: Steam has refused the key or the request has
failed for it, or the connection through the proxy is broken. -/
def Blames (world : World Body) (keyId : Int) (request : Request Body) (resource : ResourceKey) :
    Prop :=
  ∃ error, comes world keyId request = .error error ∧
    match error.verdict with
    | .refused | .failed => resource = (.apiKey, keyId)
    | .transport => resource = proxyKey request.1
    | .throttled | .noProxy => False

structure Call (Body : Type) where
  world : World Body
  ctx : SteamRequestContext

def Call.steps (call : Call Body) : List (Step Body) := (getJson call.world call.ctx).1

/-- A write of a call; a limit which it marks ends at `limit`. -/
structure Event (Body : Type) where
  call : Call Body
  write : Write
  limit : Nat := 0

open Resources (HealthSettings Resource) in
def Event.apply (settings : Resources.Attempts.ResourceKind → HealthSettings)
    (state : Resources.Attempts.State) (event : Event Body) : Resources.Attempts.State :=
  let onKey (statement : Resource → Resource) : Resources.Attempts.State :=
    { state with resources := state.resources.update event.call.ctx.key statement }
  match event.write with
  | .record input => (Resources.Attempts.recordResourceAttempt settings state input).2
  | .clearApiKeyRateLimit => onKey Resources.clearApiKeyRateLimit
  | .giveUp message => onKey (Resources.disableResource (settings .apiKey) message true)
  | .markApiKeyRateLimited message =>
      onKey (Resources.markApiKeyRateLimited message event.limit)
  | .bindApiKeyProxy _ => state
  | .markProxyActive proxyId => { state with
      resources := state.resources.update (.proxy, proxyId) Resources.markProxyActive }

/-- A write which may disable a resource. -/
def Write.accuses (keyId : Int) (resource : ResourceKey) : Write → Prop
  | .record input => input.ok = false ∧ input.resource = resource
  | .giveUp _ => resource = (.apiKey, keyId)
  | .clearApiKeyRateLimit | .markApiKeyRateLimited _ | .bindApiKeyProxy _ | .markProxyActive _ =>
      False

theorem Rotation.not_accuses {rotation : Rotation} {write : Write} {keyId : Int}
    {resource : ResourceKey} (member : write ∈ rotation.writes) :
    ¬ write.accuses keyId resource := by
  cases rotation with
  | picked next =>
      simp only [Rotation.writes, List.mem_cons, List.not_mem_nil, or_false] at member
      rcases member with rfl | rfl <;> exact not_false
  | kept | failed => cases member

theorem blames_of_charges {keyId : Int} {attempt : Nat} {request : Request Body} {write : Write}
    {resource : ResourceKey} (member : write ∈ charges world keyId attempt request)
    (accuses : write.accuses keyId resource) : Blames world keyId request resource := by
  rw [charges] at member
  cases found : comes world keyId request with
  | ok body =>
      simp only [found, List.mem_cons, List.not_mem_nil, or_false] at member
      rcases member with rfl | rfl | rfl
      · cases accuses.1
      · cases accuses.1
      · exact accuses.elim
  | error error =>
      refine ⟨error, found, ?_⟩
      rw [found] at member
      cases verdict : error.verdict with
      | refused =>
          simp only [verdict, List.mem_singleton] at member
          subst member
          exact accuses
      | noProxy => simp [verdict] at member
      | transport =>
          simp only [verdict, List.mem_cons] at member
          rcases member with rfl | rotated
          · exact accuses.2.symm
          · exact absurd accuses (Rotation.not_accuses rotated)
      | throttled =>
          simp only [verdict, List.mem_singleton] at member
          subst member
          cases accuses.1
      | failed =>
          simp only [verdict, List.mem_singleton] at member
          subst member
          exact accuses.2.symm

theorem blames_of_allCharges {keyId : Int} {attempt : Nat} {asked : List (Request Body)}
    {write : Write} {resource : ResourceKey} (member : write ∈ allCharges world keyId attempt asked)
    (accuses : write.accuses keyId resource) :
    ∃ request ∈ asked, Blames world keyId request resource := by
  induction asked generalizing attempt with
  | nil => cases member
  | cons request asked ih =>
      rcases List.mem_append.mp member with own | later
      · exact ⟨request, List.mem_cons_self, blames_of_charges own accuses⟩
      · obtain ⟨other, inside, blamed⟩ := ih later
        exact ⟨other, List.mem_cons_of_mem _ inside, blamed⟩

/-- Every write of a call which may disable a resource is the charge of one of its requests. -/
theorem Call.blames {call : Call Body} {write : Write} {resource : ResourceKey}
    (member : write ∈ writes call.steps) (accuses : write.accuses call.ctx.keyId resource) :
    ∃ request ∈ requests call.steps, Blames call.world call.ctx.keyId request resource := by
  have course := course_attempts call.world 3 0 call.ctx none
  obtain ⟨front, last, shape, ends⟩ := course.ends
  have charged : write ∈ allCharges call.world call.ctx.keyId 0 (requests call.steps) := by
    cases found : comes call.world call.ctx.keyId last with
    | ok body =>
        rw [found] at ends
        exact ends.2 ▸ member
    | error error =>
        rw [found] at ends
        rcases ends with ⟨thrown, stops, result, written⟩ | ⟨full, again, result, written⟩
        · exact written ▸ member
        · have member : write ∈ _ ++ closing error := written ▸ member
          rcases List.mem_append.mp member with charged | closes
          · exact charged
          · rw [closing] at closes
            split_ifs at closes with throttled
            · rw [List.mem_singleton.mp closes] at accuses
              exact accuses.elim
            · cases closes
  exact blames_of_allCharges charged accuses

/-- The resource has no row which is disabled. -/
def Enabled (state : Resources.Attempts.State) (resource : ResourceKey) : Prop :=
  ∀ row, state.resources resource = some row → row.status ≠ .disabled

section Run

open Resources (HealthSettings Resource)

variable {settings : Resources.Attempts.ResourceKind → HealthSettings} {resource : ResourceKey}
  {state : Resources.Attempts.State}

theorem enabled_update {key : ResourceKey} {statement : Resource → Resource}
    {after : Resources.Attempts.State}
    (written : after.resources = state.resources.update key statement)
    (keeps : key = resource → ∀ row, row.status ≠ .disabled → (statement row).status ≠ .disabled)
    (enabled : Enabled state resource) : Enabled after resource := by
  intro row found
  rw [written] at found
  rcases eq_or_ne resource key with rfl | ne
  · rw [Table.update_self] at found
    obtain ⟨before, own, rfl⟩ := Option.map_eq_some_iff.mp found
    exact keeps rfl before (enabled before own)
  · rw [Table.update_of_ne ne] at found
    exact enabled row found

/-- A write which does not accuse a resource keeps it from being disabled. -/
theorem Event.enabled_apply {event : Event Body} (enabled : Enabled state resource)
    (innocent : ¬ event.write.accuses event.call.ctx.keyId resource) :
    Enabled (event.apply settings state) resource := by
  obtain ⟨call, write, limit⟩ := event
  cases write with
  | record input =>
      refine enabled_update (Resources.Attempts.resources_recordResourceAttempt settings state
        input) (fun same row up => ?_) enabled
      have ok : input.ok = true := by
        by_contra failed
        exact innocent ⟨Bool.eq_false_iff.mpr failed, same⟩
      have kept : (Resources.Attempts.recordResourceAttempt settings state input).1 = false := by
        simp only [Resources.Attempts.recordResourceAttempt, if_pos ok]
      rwa [kept, Resources.Attempts.status_writes]
  | clearApiKeyRateLimit =>
      refine enabled_update rfl (fun _ row up => ?_) enabled
      rw [Resources.clearApiKeyRateLimit, if_pos up]
      split_ifs with limited
      · intro same
        cases same
      · exact up
  | giveUp message =>
      refine enabled_update rfl (fun same => ?_) enabled
      exact (innocent same.symm).elim
  | markApiKeyRateLimited message =>
      refine enabled_update rfl (fun _ row up => ?_) enabled
      rw [Resources.markApiKeyRateLimited, if_pos up]
      intro same
      cases same
  | bindApiKeyProxy proxyId => exact enabled
  | markProxyActive proxyId =>
      refine enabled_update rfl (fun _ row up => ?_) enabled
      rw [Resources.markProxyActive]
      split_ifs
      · intro same
        cases same
      · exact up

/-- Calls of any keys run together, their writes in any order. If this disables a resource which
was not disabled before, one of their requests is to blame: one which Steam has refused to the key
or which has failed for it, or one which has broken the connection through the proxy. -/
theorem blames_of_disabled (settings : Resources.Attempts.ResourceKind → HealthSettings)
    (state : Resources.Attempts.State) (events : List (Event Body))
    (own : ∀ event ∈ events, event.write ∈ writes event.call.steps) (resource : ResourceKey)
    (enabled : Enabled state resource)
    (disabled : ¬ Enabled (events.foldl (Event.apply settings) state) resource) :
    ∃ event ∈ events, ∃ request ∈ requests event.call.steps,
      Blames event.call.world event.call.ctx.keyId request resource := by
  induction events generalizing state with
  | nil => exact absurd enabled disabled
  | cons event events ih =>
      by_cases accuses : event.write.accuses event.call.ctx.keyId resource
      · exact ⟨event, List.mem_cons_self,
          Call.blames (own event List.mem_cons_self) accuses⟩
      · obtain ⟨other, member, blamed⟩ := ih (event.apply settings state)
          (fun other member => own other (List.mem_cons_of_mem _ member))
          (event.enabled_apply enabled accuses) disabled
        exact ⟨other, List.mem_cons_of_mem _ member, blamed⟩

/-- The resource has a row which is disabled. -/
def Disabled (state : Resources.Attempts.State) (resource : ResourceKey) : Prop :=
  ∃ row, state.resources resource = some row ∧ row.status = .disabled

theorem Disabled.update {key : ResourceKey} {statement : Resource → Resource}
    {after : Resources.Attempts.State} (disabled : Disabled state resource)
    (written : after.resources = state.resources.update key statement)
    (keeps : ∀ row, row.status = .disabled → (statement row).status = .disabled) :
    Disabled after resource := by
  obtain ⟨row, found, status⟩ := disabled
  rw [Disabled, written]
  rcases eq_or_ne resource key with rfl | ne
  · exact ⟨statement row, by rw [Table.update_self, found, Option.map_some], keeps row status⟩
  · exact ⟨row, by rw [Table.update_of_ne ne, found], status⟩

/-- No write of a call brings a resource back. -/
theorem Disabled.foldl (disabled : Disabled state resource) (events : List (Event Body)) :
    Disabled (events.foldl (Event.apply settings) state) resource := by
  induction events generalizing state with
  | nil => exact disabled
  | cons event events ih =>
      refine ih ?_
      obtain ⟨call, write, limit⟩ := event
      cases write with
      | record input =>
          refine disabled.update (Resources.Attempts.resources_recordResourceAttempt settings state
            input) fun row down => ?_
          rw [Resources.Attempts.status_writes, down, ite_self]
      | clearApiKeyRateLimit =>
          refine disabled.update rfl fun row down => ?_
          rwa [Resources.clearApiKeyRateLimit, if_neg (not_not_intro down)]
      | giveUp message => exact disabled.update rfl fun _ _ => rfl
      | markApiKeyRateLimited message =>
          refine disabled.update rfl fun row down => ?_
          rwa [Resources.markApiKeyRateLimited, if_neg (not_not_intro down)]
      | bindApiKeyProxy proxyId => exact disabled
      | markProxyActive proxyId =>
          refine disabled.update rfl fun row down => ?_
          rwa [Resources.markProxyActive, if_neg (by simp [down])]

/-- A call whose first request finds the connection through proxy 1 broken, and whose second one is
answered through proxy 2. -/
def brokenCall (keyId : Int) : Call Nat where
  world :=
    { reply := fun
        | 0 => .threw { message := "socks connect timeout" }
        | _ => .response 200 (.ok 570)
      rotation := fun _ => .picked { id := 2, url := "socks5://second" }
      proxyHostPort := id }
  ctx :=
    { keyId
      proxy := { id := 1, url := "socks5://first" } }

/-- Two keys, of which one still rests, and two proxies. -/
def twoKeys : Resources.Attempts.State where
  resources := fun key =>
    if key = (.apiKey, 7) then some { status := .active }
    else if key = (.apiKey, 8) then
      some
        { status := .rateLimited
          rateLimitedUntil := some 90
          lastError := some "steam HTTP 429" }
    else if key = (.proxy, 1) then some { status := .active }
    else if key = (.proxy, 2) then some { lastError := some "proxy HTTP 407" }
    else none

/-- The failure of a request through proxy 1. -/
def broken : Input := ⟨(.proxy, 1), false, some "socks connect timeout"⟩

/-- The calls of both keys run together; the second failure takes proxy 1 out. -/
def bothBreak : List (Event Nat) :=
  let answered : Write := .record ⟨(.proxy, 2), true, none⟩
  [⟨brokenCall 7, .record broken, 0⟩, ⟨brokenCall 8, .record broken, 0⟩,
    ⟨brokenCall 8, .bindApiKeyProxy 2, 0⟩, ⟨brokenCall 7, .bindApiKeyProxy 2, 0⟩,
    ⟨brokenCall 7, .markProxyActive 2, 0⟩, ⟨brokenCall 7, answered, 0⟩,
    ⟨brokenCall 8, .markProxyActive 2, 0⟩, ⟨brokenCall 7, .record ⟨(.apiKey, 7), true, none⟩, 0⟩,
    ⟨brokenCall 8, answered, 0⟩, ⟨brokenCall 8, .record ⟨(.apiKey, 8), true, none⟩, 0⟩,
    ⟨brokenCall 8, .clearApiKeyRateLimit, 0⟩, ⟨brokenCall 7, .clearApiKeyRateLimit, 0⟩]

open Resources.Attempts in
/-- Two failures in a window of two disable proxy 1. -/
theorem disabled_behind_two_failures :
    let once := (recordResourceAttempt (fun _ => shortWindow) twoKeys broken).2
    Disabled (recordResourceAttempt (fun _ => shortWindow) once broken).2 (.proxy, 1) := by
  intro once
  have windowed : Windowed (fun _ => shortWindow) [broken] once :=
    windowed_recordAll (fun _ => shortWindow) twoKeys.resources [broken]
  have disables : (recordResourceAttempt (fun _ => shortWindow) once broken).1 = true :=
    (windowed.disabled_iff broken).mpr ⟨rfl, by decide, by decide +kernel⟩
  obtain ⟨row, found⟩ : ∃ row, once.resources (.proxy, 1) = some row := by
    refine Option.isSome_iff_exists.mp ?_
    rw [resources_recordResourceAttempt, Table.isSome_update]
    rfl
  refine ⟨Resources.Attempts.writes shortWindow broken true row, ?_, rfl⟩
  rw [resources_recordResourceAttempt, disables, show broken.resource = (.proxy, 1) from rfl,
    Table.update_self, found]
  rfl

theorem blames_of_disabled_bothBreak :
    ∃ event ∈ bothBreak, ∃ request ∈ requests event.call.steps,
      Blames event.call.world event.call.ctx.keyId request (.proxy, 1) := by
  apply blames_of_disabled (fun _ => Resources.Attempts.shortWindow) twoKeys
  · decide +kernel
  · intro row found
    cases found
    decide
  · intro enabled
    obtain ⟨row, found, status⟩ := disabled_behind_two_failures.foldl (bothBreak.drop 2)
    exact enabled row found status

end Run

end ApiClient
end Steam
end DotaCollector
