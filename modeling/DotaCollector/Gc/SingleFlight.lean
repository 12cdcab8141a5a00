import DotaCollector.Gc.Session

/-!
# One connection at a time

The two module variables are guarded by no lock. What keeps a second Steam client from logging on
is the order of the looks at them: an attempt begins only when no session and no other attempt is
there, and it alone sets the session while it runs. The one gap is the time between the welcome
and the assignment of the session, in which a lost connection is noticed by nobody.
-/

namespace DotaCollector
namespace Gc
namespace Session

/-! ## Who holds a client which is logged on -/

/-- The client which an attempt has logged on and has not given to the session. -/
def Attempt.connected (attempt : Attempt) : Option Nat :=
  match attempt.wait with
  | .welcome _ | .marking _ => attempt.client
  | _ => none

def Flight.connected : Flight → Option Nat
  | .trying attempt => attempt.connected
  | _ => none

def Flight.running : Flight → Bool
  | .settled _ => false
  | _ => true

/-- The session or an attempt holds the client. -/
def Held (state : State) (client : Nat) : Prop :=
  state.session.map (·.client) = some client ∨
    ∃ (number : Nat) (flight : Flight), state.flights[number]? = some flight ∧
      flight.connected = some client

/-- The owner of an attempt clears `connecting` behind it. -/
def Owns (state : State) (caller flight : Nat) : Prop :=
  state.callers[caller]? = some (.waiting flight true)

/-- What holds between any two steps. -/
structure Single (state : State) : Prop where
  /-- The attempt which runs is the one in `connecting`. -/
  connecting : ∀ {number : Nat} {flight : Flight}, state.flights[number]? = some flight →
    flight.running = true → state.connecting = some number
  /-- While an attempt runs there is no session. -/
  quiet : ∀ {number : Nat} {flight : Flight}, state.flights[number]? = some flight →
    flight.running = true → state.session = none
  owner : ∀ {caller flight}, Owns state caller flight → state.connecting = some flight
  alone : ∀ {caller other flight another}, Owns state caller flight → Owns state other another →
    other = caller
  held : ∀ client ∈ state.online, Held state client
  nodup : state.online.Nodup

variable {state after : State} {number caller : Nat} {attempt : Attempt} {flight : Flight}

theorem running_of_connected {client : Nat} (connected : flight.connected = some client) :
    flight.running = true := by
  cases flight with
  | listing => rfl
  | trying attempt => rfl
  | settled result => cases connected

theorem Single.eq_of_running (single : Single state) {other : Nat} {another : Flight}
    (found : state.flights[number]? = some flight) (running : flight.running = true)
    (foundOther : state.flights[other]? = some another) (runningOther : another.running = true) :
    other = number := by
  have first := single.connecting found running
  have second := single.connecting foundOther runningOther
  exact Option.some.inj (second.symm.trans first)

/-- While an attempt runs, every client online is its own. -/
theorem Single.connected_of_online (single : Single state)
    (found : state.flights[number]? = some flight) (running : flight.running = true) {client : Nat}
    (online : client ∈ state.online) : flight.connected = some client := by
  rcases single.held client online with bound | ⟨other, another, foundOther, connected⟩
  · rw [single.quiet found running] at bound
    cases bound
  · have same := single.eq_of_running found running foundOther (running_of_connected connected)
    subst same
    rw [found] at foundOther
    cases foundOther
    exact connected

theorem Single.online_eq_nil (single : Single state)
    (found : state.flights[number]? = some flight) (running : flight.running = true)
    (idle : flight.connected = none) : state.online = [] := by
  rw [List.eq_nil_iff_forall_not_mem]
  intro client online
  have connected := single.connected_of_online found running online
  rw [idle] at connected
  cases connected

/-- Whichever way a client is held, there is at most one. -/
theorem Single.eq_of_online (single : Single state) {client other : Nat}
    (online : client ∈ state.online) (onlineOther : other ∈ state.online) : other = client := by
  rcases single.held client online with bound | ⟨number, flight, found, connected⟩
  · rcases single.held other onlineOther with boundOther | ⟨number, flight, found, connected⟩
    · rw [bound] at boundOther
      exact (Option.some.inj boundOther).symm
    · rw [single.quiet found (running_of_connected connected)] at bound
      cases bound
  · have same := single.connected_of_online found (running_of_connected connected) onlineOther
    rw [connected] at same
    exact (Option.some.inj same).symm

theorem Single.length_online (single : Single state) : state.online.length ≤ 1 := by
  match clients : state.online with
  | [] => simp
  | [_] => simp
  | first :: second :: rest =>
      have nodup := single.nodup
      have same : second = first :=
        single.eq_of_online (by simp [clients]) (by simp [clients])
      rw [clients, same] at nodup
      simp at nodup

/-! ## The calls -/

/-- A place which owns no attempt can be taken by any call. -/
theorem Single.setCaller (single : Single state) {place : Caller}
    (plain : ∀ flight, place ≠ .waiting flight true) : Single (state.setCaller caller place) := by
  have before : ∀ {other flight}, Owns (state.setCaller caller place) other flight →
      Owns state other flight := by
    intro other flight owns
    unfold Owns State.setCaller at owns
    rw [List.getElem?_set] at owns
    split_ifs at owns with same inside
    · exact (plain flight (Option.some.inj owns)).elim
    · exact owns
  exact
    { connecting := single.connecting
      quiet := single.quiet
      owner := fun owns => single.owner (before owns)
      alone := fun owns other => single.alone (before owns) (before other)
      held := single.held
      nodup := single.nodup }

theorem Single.arrive (single : Single state) :
    Single { state with callers := state.callers ++ [.checking] } := by
  have before : ∀ {other flight}, Owns { state with callers := state.callers ++ [.checking] }
      other flight → Owns state other flight := by
    intro other flight owns
    unfold Owns at owns ⊢
    rw [List.getElem?_append] at owns
    split_ifs at owns with inside
    · exact owns
    · rw [List.getElem?_singleton] at owns
      split_ifs at owns
      cases owns
  exact
    { connecting := single.connecting
      quiet := single.quiet
      owner := fun owns => single.owner (before owns)
      alone := fun owns other => single.alone (before owns) (before other)
      held := single.held
      nodup := single.nodup }

/-- Without a session a call joins the attempt in `connecting`, or becomes the owner of its own. -/
theorem Single.joinOrOpen (single : Single state) (closed : state.session = none) :
    Single (state.joinOrOpen caller) := by
  unfold State.joinOrOpen
  split
  · exact single.setCaller (by simp)
  · rename_i free
    have idle : ∀ {number : Nat} {flight : Flight}, state.flights[number]? = some flight →
        flight.running = true → False := by
      intro number flight found running
      have there := single.connecting found running
      rw [free] at there
      cases there
    have unowned : ∀ {other flight}, ¬ Owns state other flight := by
      intro other flight owns
      have there := single.owner owns
      rw [free] at there
      cases there
    have owners : ∀ {other flight},
        (state.callers.set caller (.waiting state.flights.length true))[other]? =
          some (.waiting flight true) → other = caller ∧ flight = state.flights.length := by
      intro other flight owns
      rw [List.getElem?_set] at owns
      split_ifs at owns with same inside
      · cases owns
        exact ⟨same.symm, rfl⟩
      · exact (unowned owns).elim
    refine
      { connecting := ?_
        quiet := fun _ _ => closed
        owner := fun owns => congrArg some (owners owns).2.symm
        alone := fun owns other => (owners other).1.trans (owners owns).1.symm
        held := ?_
        nodup := single.nodup }
    · intro number flight found running
      change (state.flights ++ [Flight.listing])[number]? = some flight at found
      rw [List.getElem?_append] at found
      split_ifs at found with inside
      · exact (idle found running).elim
      · rw [List.getElem?_singleton] at found
        split_ifs at found with last
        have there : number = state.flights.length := by omega
        exact congrArg some there.symm
    · intro client online
      rcases single.held client online with bound | ⟨number, flight, found, connected⟩
      · exact .inl bound
      · exact (idle found (running_of_connected connected)).elim

/-- A settled attempt is left by its owner, who clears `connecting`. -/
theorem Single.release (single : Single state) {place : Caller}
    (owns : Owns state caller number) (plain : ∀ flight, place ≠ .waiting flight true)
    (found : state.flights[number]? = some flight) (settled : flight.running = false) :
    Single { state.setCaller caller place with connecting := none } := by
  have idle : ∀ {other : Nat} {another : Flight}, state.flights[other]? = some another →
      another.running = true → False := by
    intro other another foundOther running
    have first := single.owner owns
    have second := single.connecting foundOther running
    obtain rfl := Option.some.inj (second.symm.trans first)
    rw [found] at foundOther
    cases foundOther
    rw [settled] at running
    cases running
  have unowned : ∀ {other flight : Nat},
      (state.callers.set caller place)[other]? = some (.waiting flight true) → False := by
    intro other flight there
    rw [List.getElem?_set] at there
    split_ifs at there with same inside
    · exact plain flight (Option.some.inj there)
    · exact same (single.alone owns there).symm
  exact
    { connecting := fun foundOther running => (idle foundOther running).elim
      quiet := fun foundOther running => (idle foundOther running).elim
      owner := fun there => (unowned there).elim
      alone := fun there => (unowned there).elim
      held := single.held
      nodup := single.nodup }

/-! ## The session -/

/-- Dropping a client takes it from whoever holds it. -/
theorem Single.drop (single : Single state) {client : Nat} {session : Option BoundSession}
    (kept : session = state.session ∨
      session = none ∧ state.session.map (·.client) = some client) :
    Single { state.dropClient client with session } := by
  have quiet : state.session = none → session = none := by
    rintro closed
    rcases kept with rfl | ⟨cleared, -⟩
    · exact closed
    · exact cleared
  refine
    { connecting := single.connecting
      quiet := fun found running => quiet (single.quiet found running)
      owner := single.owner
      alone := single.alone
      held := ?_
      nodup := single.nodup.filter _ }
  intro other online
  obtain ⟨online, ne⟩ := List.mem_filter.mp online
  rcases single.held other online with bound | inFlight
  · rcases kept with rfl | ⟨-, mine⟩
    · exact .inl bound
    · rw [bound] at mine
      cases mine
      simp at ne
  · exact .inr inFlight

theorem Single.dropClient (single : Single state) (client : Nat) :
    Single (state.dropClient client) :=
  single.drop (.inl rfl)

theorem Single.dropSession (single : Single state) {bound : BoundSession}
    (held : state.session = some bound) : Single (state.dropSession bound) :=
  single.drop (.inr ⟨rfl, by rw [held]; rfl⟩)

/-! ## The attempt -/

/-- The attempt has gone to a place where it holds no client. -/
def Parks (state : State) (number : Nat) (after : State) : Prop :=
  ∃ made flight, flight.connected = none ∧
    after = { state with made, flights := state.flights.set number flight }

theorem parks_setFlight (idle : flight.connected = none) :
    Parks state number (state.setFlight number flight) :=
  ⟨state.made, flight, idle, rfl⟩

theorem parks_accountFailed (error : Failure) :
    Parks state number (state.accountFailed number attempt error) := by
  unfold State.accountFailed
  split
  · exact parks_setFlight rfl
  · exact parks_setFlight rfl

theorem parks_attemptFailed (error : Failure) :
    Parks state number (state.attemptFailed number attempt error) := by
  unfold State.attemptFailed
  split
  · exact parks_setFlight rfl
  · exact parks_accountFailed error

theorem parks_connectFailed (mode : Mode) (error : Failure) :
    Parks state number (state.connectFailed number attempt mode error) := by
  cases mode with
  | password => exact parks_attemptFailed error
  | refresh =>
      unfold State.connectFailed
      dsimp only
      split
      · exact parks_attemptFailed error
      · exact parks_setFlight rfl

theorem parks_connect (mode : Mode) :
    Parks state number (state.connect number attempt mode) := by
  unfold State.connect
  split
  · exact ⟨_, _, rfl, rfl⟩
  · exact parks_connectFailed mode _

section Clock

variable (jwtExpiresAt : String → Option Nat)

theorem parks_connectAccount (now : Nat) :
    Parks state number (state.connectAccount jwtExpiresAt now number attempt) := by
  unfold State.connectAccount
  split
  · exact parks_connect .refresh
  · exact parks_connect .password

theorem parks_nextAccount (now : Nat) (accounts : List GcAccount) (lastError : Failure)
    (imapPasswordAuthDead gcWelcomeFailed : Bool) :
    Parks state number (state.nextAccount jwtExpiresAt now number accounts lastError
      imapPasswordAuthDead gcWelcomeFailed) := by
  unfold State.nextAccount
  dsimp only
  split
  · exact parks_setFlight rfl
  · exact parks_setFlight rfl

end Clock

theorem parks_listed (accounts : List GcAccount) :
    Parks state number (state.listed number accounts) := by
  unfold State.listed
  split
  · exact parks_setFlight rfl
  · exact parks_setFlight rfl

/-- A running attempt is at another place; what it holds then is all that is online. -/
theorem Single.setFlight (single : Single state)
    (found : state.flights[number]? = some flight) (running : flight.running = true)
    {entered : Flight} {made : Nat} {online : List Nat} (nodup : online.Nodup)
    (owned : ∀ client ∈ online, entered.connected = some client) :
    Single { state with made, online, flights := state.flights.set number entered } := by
  have before : ∀ {other : Nat} {another : Flight},
      (state.flights.set number entered)[other]? = some another → another.running = true →
        ∃ was : Flight, state.flights[other]? = some was ∧ was.running = true := by
    intro other another there runs
    rw [List.getElem?_set] at there
    split_ifs at there with same inside
    · exact ⟨flight, same ▸ found, running⟩
    · exact ⟨another, there, runs⟩
  refine
    { connecting := ?_
      quiet := ?_
      owner := single.owner
      alone := single.alone
      held := ?_
      nodup }
  · intro other another there runs
    obtain ⟨was, found, running⟩ := before there runs
    exact single.connecting found running
  · intro other another there runs
    obtain ⟨was, found, running⟩ := before there runs
    exact single.quiet found running
  · intro client inside
    refine .inr ⟨number, entered, ?_, owned client inside⟩
    have bound := (List.getElem?_eq_some_iff.mp found).1
    simp [bound]

/-- An attempt which holds nothing goes on without a client. -/
theorem Single.parks (single : Single state)
    (found : state.flights[number]? = some flight) (running : flight.running = true)
    (empty : state.online = []) (parks : Parks state number after) : Single after := by
  obtain ⟨made, entered, -, rfl⟩ := parks
  apply single.setFlight found running
  · exact single.nodup
  · intro client online
    rw [empty] at online
    cases online

/-- An attempt which fails with a client drops it. -/
theorem Single.parks_drop (single : Single state) {client : Nat}
    (found : state.flights[number]? = some flight) (held : flight.connected = some client)
    (parks : Parks (state.dropClient client) number after) : Single after := by
  refine (single.dropClient client).parks found (running_of_connected held) ?_ parks
  rw [List.eq_nil_iff_forall_not_mem]
  intro other online
  obtain ⟨online, ne⟩ := List.mem_filter.mp online
  have same := single.connected_of_online found (running_of_connected held) online
  rw [held] at same
  cases same
  simp at ne

/-- The attempt settles with a session. -/
theorem Single.install (single : Single state) {bound : BoundSession}
    {result : Except Failure BoundSession}
    (found : state.flights[number]? = some flight) (held : flight.connected = some bound.client) :
    Single ({ state with session := some bound }.setFlight number (.settled result)) := by
  have running := running_of_connected held
  have idle : ∀ {other : Nat} {another : Flight},
      (state.flights.set number (.settled result))[other]? = some another →
        another.running = true → False := by
    intro other another there runs
    rw [List.getElem?_set] at there
    split_ifs at there with same inside
    · cases there
      cases runs
    · exact same (single.eq_of_running found running there runs).symm
  refine
    { connecting := fun there runs => (idle there runs).elim
      quiet := fun there runs => (idle there runs).elim
      owner := single.owner
      alone := single.alone
      held := ?_
      nodup := single.nodup }
  intro client online
  have mine := single.connected_of_online found running online
  rw [held] at mine
  exact .inl mine

/-! ## What one step can do -/

/-- The steps of an attempt, by what they do to its client. -/
inductive Advances (state : State) (number : Nat) (attempt : Attempt) : Event → State → Prop where
  | parked {event : Event} {after : State} (idle : attempt.connected = none)
      (parks : Parks state number after) : Advances state number attempt event after
  | dropped {event : Event} {after : State} {client : Nat}
      (held : attempt.connected = some client)
      (failed : ∀ flight now, event ≠ .marked flight now (.ok ()))
      (parks : Parks (state.dropClient client) number after) :
      Advances state number attempt event after
  | loggedOn {event : Event} {entered : Flight} {client : Nat} (idle : attempt.connected = none)
      (held : entered.connected = some client) :
      Advances state number attempt event
        ({ state with online := client :: state.online }.setFlight number entered)
  | welcomed {event : Event} {entered : Flight} {client : Nat}
      (held : attempt.connected = some client) (kept : entered.connected = some client)
      (online : client ∈ state.online) :
      Advances state number attempt event (state.setFlight number entered)
  | installed {flight now : Nat} {client : Nat} (held : attempt.connected = some client) :
      Advances state number attempt (.marked flight now (.ok ()))
        ({ state with session := some ⟨attempt.current, client⟩ }.setFlight number
          (.settled (.ok ⟨attempt.current, client⟩)))

variable {jwtExpiresAt : String → Option Nat} {event : Event}

theorem connected_of_wait {mode : Mode} {client : Nat} (mine : attempt.client = some client)
    (stands : attempt.wait = .welcome mode ∨ attempt.wait = .marking mode) :
    attempt.connected = some client := by
  unfold Attempt.connected
  rcases stands with stands | stands
  · rw [stands]
    exact mine
  · rw [stands]
    exact mine

theorem advances_of_goOn (step : state.goOn jwtExpiresAt number attempt event = some after) :
    Advances state number attempt event after := by
  cases event with
  | call | checked | resume | listed | gone | closeGcSession => cases step
  | bound flight now proxy =>
      simp only [State.goOn] at step
      split at step
      · rename_i stands
        refine .parked (by rw [Attempt.connected, stands]) ?_
        cases proxy with
        | error error =>
            cases step
            exact parks_accountFailed error
        | ok proxy =>
            cases step
            exact parks_connectAccount jwtExpiresAt now
      · cases step
  | offset flight now answer =>
      simp only [State.goOn] at step
      split at step
      · rename_i mode client stands mine
        have idle : attempt.connected = none := by rw [Attempt.connected, stands]
        cases answer with
        | error error =>
            cases step
            exact .parked idle (parks_connectFailed mode error)
        | ok _ =>
            cases step
            exact .loggedOn idle mine
      · cases step
  | welcome flight now answer =>
      simp only [State.goOn] at step
      split at step
      · rename_i mode client stands mine
        have held := connected_of_wait mine (.inl stands)
        cases answer with
        | error error =>
            cases step
            exact .dropped held (by simp) (parks_connectFailed mode error)
        | ok _ =>
            dsimp only at step
            split at step
            · cases step
              exact .welcomed held mine ‹_›
            · cases step
      · cases step
  | marked flight now answer =>
      simp only [State.goOn] at step
      split at step
      · rename_i mode client stands mine
        have held := connected_of_wait mine (.inr stands)
        cases answer with
        | error error =>
            cases step
            exact .dropped held (by simp) (parks_connectFailed mode error)
        | ok _ =>
            cases step
            exact .installed held
      · cases step
  | cleared flight now answer =>
      simp only [State.goOn] at step
      split at step
      · rename_i stands
        refine .parked (by rw [Attempt.connected, stands]) ?_
        cases answer with
        | error error =>
            cases step
            exact parks_attemptFailed error
        | ok _ =>
            cases step
            exact parks_connect .password
      · cases step
  | rotated flight now proxy =>
      simp only [State.goOn] at step
      split at step
      · rename_i stands
        refine .parked (by rw [Attempt.connected, stands]) ?_
        cases proxy with
        | error error =>
            cases step
            exact parks_accountFailed error
        | ok proxy =>
            cases step
            exact parks_connectAccount jwtExpiresAt now
      · cases step
  | recorded flight now answer =>
      simp only [State.goOn] at step
      split at step
      · rename_i error stands
        refine .parked (by rw [Attempt.connected, stands]) ?_
        cases answer with
        | error thrown =>
            cases step
            exact parks_setFlight rfl
        | ok _ =>
            cases step
            exact parks_nextAccount jwtExpiresAt now _ _ _ _
      · cases step

theorem Single.advances (single : Single state)
    (found : state.flights[number]? = some (.trying attempt))
    (advances : Advances state number attempt event after) : Single after := by
  cases advances with
  | parked idle parks =>
      exact single.parks found rfl (single.online_eq_nil found rfl idle) parks
  | dropped held _ parks => exact single.parks_drop found held parks
  | @loggedOn _ entered client idle held =>
      have empty := single.online_eq_nil found rfl idle
      apply single.setFlight found rfl
      · rw [empty]
        simp
      · intro other online
        rw [empty] at online
        rw [List.mem_singleton.mp online]
        exact held
  | @welcomed _ entered client held kept _ =>
      apply single.setFlight found rfl single.nodup
      intro other online
      have mine := single.connected_of_online found rfl online
      rw [kept]
      exact held.symm.trans mine
  | installed held => exact single.install found held

/-- The steps of a worker; the attempt which an event is about is the one that goes on. -/
inductive Moves (jwtExpiresAt : String → Option Nat) (state : State) : Event → State → Prop where
  | arrive (there : state.session.isSome = true) :
      Moves jwtExpiresAt state .call { state with callers := state.callers ++ [Caller.checking] }
  | enter (closed : state.session = none) :
      Moves jwtExpiresAt state .call
        (State.joinOrOpen { state with callers := state.callers ++ [Caller.checking] }
          state.callers.length)
  | answer {event : Event} {caller : Nat} {place : Caller} (outside : State.flightOf event = none)
      (plain : ∀ flight, place ≠ .waiting flight true) :
      Moves jwtExpiresAt state event (state.setCaller caller place)
  | reopen {event : Event} {caller : Nat} {bound : BoundSession}
      (outside : State.flightOf event = none) (there : state.session = some bound) :
      Moves jwtExpiresAt state event ((state.dropSession bound).joinOrOpen caller)
  | release {event : Event} {caller number : Nat} {place : Caller} {flight : Flight}
      (outside : State.flightOf event = none) (owns : Owns state caller number)
      (plain : ∀ flight, place ≠ .waiting flight true)
      (found : state.flights[number]? = some flight) (settled : flight.running = false) :
      Moves jwtExpiresAt state event { state.setCaller caller place with connecting := none }
  | parks {event : Event} {number : Nat} {after : State} (outside : State.flightOf event = none)
      (found : state.flights[number]? = some .listing) (parks : Parks state number after) :
      Moves jwtExpiresAt state event after
  | advances {event : Event} {number : Nat} {attempt : Attempt} {after : State}
      (found : state.flights[number]? = some (.trying attempt))
      (about : State.flightOf event = some number)
      (advances : Advances state number attempt event after) :
      Moves jwtExpiresAt state event after
  | lose {client : Nat} (other : state.session.map (·.client) ≠ some client) :
      Moves jwtExpiresAt state (.gone client) (state.dropClient client)
  | clear {event : Event} {client : Nat} (outside : State.flightOf event = none)
      (mine : state.session.map (·.client) = some client) :
      Moves jwtExpiresAt state event { state.dropClient client with session := none }
  | stay : Moves jwtExpiresAt state .closeGcSession state

theorem moves_goOn (about : State.flightOf event = some number)
    (step : (match state.flights[number]? with
      | some (.trying attempt) => state.goOn jwtExpiresAt number attempt event
      | _ => none) = some after) : Moves jwtExpiresAt state event after := by
  split at step
  · exact .advances ‹_› about (advances_of_goOn step)
  · cases step

theorem moves_of_next (step : state.next jwtExpiresAt event = some after) :
    Moves jwtExpiresAt state event after := by
  cases event with
  | call =>
      simp only [State.next] at step
      split at step
      · cases step
        exact .arrive ‹_›
      · cases step
        rename_i closed
        rw [Bool.not_eq_true, Option.isSome_eq_false_iff, Option.isNone_iff_eq_none] at closed
        exact .enter closed
  | checked caller usable =>
      simp only [State.next] at step
      split at step
      · split at step
        · cases step
          exact .answer rfl (by simp)
        · cases step
          exact .answer rfl (by simp)
        · split at step
          · cases step
            exact .answer rfl (by simp)
          · cases step
            exact .reopen rfl ‹_›
      · cases step
  | resume caller =>
      simp only [State.next] at step
      split at step
      · rename_i flight owner waits
        split at step
        · rename_i result found
          cases owner with
          | false =>
              cases step
              refine .answer rfl fun flight => ?_
              cases result <;> simp
          | true =>
              cases step
              refine .release rfl waits (fun flight => ?_) found rfl
              cases result <;> simp
        · cases step
      · cases step
  | listed flight accounts =>
      simp only [State.next] at step
      split at step
      · split at step
        · cases step
          exact .parks rfl ‹_› (parks_setFlight rfl)
        · cases step
          exact .parks rfl ‹_› (parks_listed _)
      · cases step
  | gone client =>
      simp only [State.next] at step
      split at step
      · rename_i mine
        cases step
        obtain ⟨bound, there, same⟩ := Option.any_eq_true .. |>.mp mine
        refine .clear rfl ?_
        rw [there]
        exact congrArg some (of_decide_eq_true same)
      · rename_i other
        cases step
        refine .lose fun mine => other ?_
        obtain ⟨bound, there, rfl⟩ := Option.map_eq_some_iff.mp mine
        rw [there]
        simp
  | closeGcSession =>
      simp only [State.next] at step
      split at step
      · cases step
        exact .stay
      · cases step
        refine .clear rfl ?_
        rename_i bound there
        rw [there]
        rfl
  | bound flight | offset flight | welcome flight | marked flight | cleared flight
  | rotated flight | recorded flight => exact moves_goOn rfl step

theorem Single.next (single : Single state) (step : state.next jwtExpiresAt event = some after) :
    Single after := by
  cases moves_of_next step with
  | arrive => exact single.arrive
  | enter closed => exact single.arrive.joinOrOpen closed
  | answer _ plain => exact single.setCaller plain
  | reopen _ there => exact (single.dropSession there).joinOrOpen rfl
  | release _ owns plain found settled => exact single.release owns plain found settled
  | parks _ found parks =>
      exact single.parks found rfl (single.online_eq_nil found rfl rfl) parks
  | advances found _ advances => exact single.advances found advances
  | lose => exact single.dropClient _
  | clear _ mine => exact single.drop (.inr ⟨rfl, mine⟩)
  | stay => exact single

theorem single_initial : Single {} where
  connecting := by simp
  quiet := by simp
  owner := by simp [Owns]
  alone := by simp [Owns]
  held := by simp
  nodup := List.nodup_nil

theorem Single.run {initial final : State} {events : List Event} (single : Single initial)
    (execution : Schedule.run (State.next jwtExpiresAt) initial events = some final) :
    Single final :=
  Schedule.run_invariant (fun held step => Single.next held step) single execution

/-- However the steps of any number of calls, of the attempts, of disconnects and of a shutdown
interleave: at most one client is logged on, the session or the attempt which runs holds it, and
an attempt runs only alone and without a session. -/
theorem one_client_online {final : State} {events : List Event}
    (execution : Schedule.run (State.next jwtExpiresAt) {} events = some final) :
    final.online.length ≤ 1 ∧ (∀ client ∈ final.online, Held final client) ∧
      ∀ (number : Nat) (flight : Flight), final.flights[number]? = some flight →
        flight.running = true → final.connecting = some number ∧ final.session = none := by
  have single := single_initial.run execution
  refine ⟨single.length_online, single.held, ?_⟩
  intro number flight found running
  exact ⟨single.connecting found running, single.quiet found running⟩

/-- An account of the pool, and the proxy it is bound to. -/
def pooled : GcAccount := { id := 1 }

def sticky : BoundProxy := { id := 7, url := "socks5://10.0.0.1:1080" }

/-- An attempt up to the welcome. -/
def welcomed (flight : Nat) : List Event :=
  [.listed flight (.ok [pooled]), .bound flight 0 (.ok sticky), .offset flight 0 (.ok ()),
    .welcome flight 0 (.ok ())]

/-- Two calls share the first attempt; its client is lost, and a third call opens another. -/
def threeCalls : List Event :=
  [.call, .call] ++ welcomed 0 ++
    [.marked 0 0 (.ok ()), .resume 0, .resume 1, .gone 0, .call] ++ welcomed 1

theorem one_client_online_threeCalls : ∃ final,
    Schedule.run (State.next fun _ => none) {} threeCalls = some final ∧
      (final.online.length ≤ 1 ∧ (∀ client ∈ final.online, Held final client) ∧
        ∀ (number : Nat) (flight : Flight), final.flights[number]? = some flight →
          flight.running = true → final.connecting = some number ∧ final.session = none) := by
  have runs : (Schedule.run (State.next fun _ => none) {} threeCalls).isSome = true := by
    decide +kernel
  obtain ⟨final, execution⟩ := Option.isSome_iff_exists.mp runs
  exact ⟨final, execution, one_client_online execution⟩

/-! ## A session which is gone -/

/-- The client of the session, if there is one, is logged on. -/
def SessionLive (state : State) : Prop :=
  ∀ bound, state.session = some bound → bound.client ∈ state.online

/-- The event makes no session of a client which was lost behind its welcome. -/
def InstallsLive (state : State) (event : Event) : Prop :=
  ∀ flight now, event = .marked flight now (.ok ()) → ∀ attempt client,
    state.flights[flight]? = some (.trying attempt) → attempt.connected = some client →
      client ∈ state.online

theorem sessionLive_of_none (closed : state.session = none) : SessionLive state := by
  intro bound there
  rw [closed] at there
  cases there

theorem installsLive_of_outside (outside : State.flightOf event = none) :
    InstallsLive state event := by
  rintro flight now rfl
  cases outside

theorem session_of_parks (parks : Parks state number after) : after.session = state.session := by
  obtain ⟨made, flight, -, rfl⟩ := parks
  rfl

theorem Single.installsLive_advances_iff (single : Single state)
    (found : state.flights[number]? = some (.trying attempt))
    (about : State.flightOf event = some number)
    (advances : Advances state number attempt event after) :
    InstallsLive state event ↔ SessionLive after := by
  have quiet := single.quiet found rfl
  -- what an event that installs nothing has to show
  have passes (spared : ∀ flight now, event = .marked flight now (.ok ()) → ∀ client,
      attempt.connected = some client → client ∈ state.online)
      (closed : after.session = none) : InstallsLive state event ↔ SessionLive after := by
    refine iff_of_true ?_ (sessionLive_of_none closed)
    rintro flight now rfl other client foundOther held
    obtain rfl := Option.some.inj about
    rw [found] at foundOther
    cases foundOther
    exact spared flight now rfl client held
  cases advances with
  | parked idle parks =>
      apply passes
      · intro flight now _ client held
        rw [idle] at held
        cases held
      · exact (session_of_parks parks).trans quiet
  | dropped _ failed parks =>
      apply passes
      · intro flight now installs
        exact (failed flight now installs).elim
      · exact (session_of_parks parks).trans quiet
  | loggedOn idle =>
      apply passes
      · intro flight now _ client held
        rw [idle] at held
        cases held
      · exact quiet
  | welcomed held _ online =>
      apply passes
      · intro flight now _ client mine
        rw [held] at mine
        cases mine
        exact online
      · exact quiet
  | @installed flight now client held =>
      obtain rfl := Option.some.inj about
      constructor
      · rintro installs bound ⟨⟩
        exact installs flight now rfl attempt client found held
      · rintro live other moment same attempt client foundOther heldOther
        cases same
        rw [found] at foundOther
        cases foundOther
        rw [held] at heldOther
        cases heldOther
        exact live _ rfl

theorem sessionLive_joinOrOpen (closed : state.session = none) :
    SessionLive (state.joinOrOpen caller) := by
  apply sessionLive_of_none
  unfold State.joinOrOpen
  split
  · exact closed
  · exact closed

theorem Single.installsLive_iff (single : Single state) (live : SessionLive state)
    (step : state.next jwtExpiresAt event = some after) :
    InstallsLive state event ↔ SessionLive after := by
  cases moves_of_next step with
  | arrive => exact iff_of_true (installsLive_of_outside rfl) live
  | enter closed => exact iff_of_true (installsLive_of_outside rfl) (sessionLive_joinOrOpen closed)
  | answer outside => exact iff_of_true (installsLive_of_outside outside) live
  | reopen outside =>
      exact iff_of_true (installsLive_of_outside outside) (sessionLive_joinOrOpen rfl)
  | release outside => exact iff_of_true (installsLive_of_outside outside) live
  | parks outside found parks =>
      refine iff_of_true (installsLive_of_outside outside) (sessionLive_of_none ?_)
      exact (session_of_parks parks).trans (single.quiet found rfl)
  | advances found about advances => exact single.installsLive_advances_iff found about advances
  | @lose client other =>
      refine iff_of_true (installsLive_of_outside rfl) fun bound there => ?_
      refine List.mem_filter.mpr ⟨live bound there, decide_eq_true fun same => other ?_⟩
      change state.session = some bound at there
      rw [there, ← same]
      rfl
  | clear outside => exact iff_of_true (installsLive_of_outside outside) (sessionLive_of_none rfl)
  | stay => exact iff_of_true (installsLive_of_outside rfl) live

/-- In a run, every session found in any state is one whose client is logged on, exactly when no
attempt ever made a session of a client which was lost while the writes behind its welcome were
under way. -/
theorem session_live_iff {final : State} {events : List Event}
    (execution : Schedule.run (State.next jwtExpiresAt) {} events = some final) :
    Schedule.Throughout (State.next jwtExpiresAt) InstallsLive {} events ↔
      ∀ visited state, visited <+: events →
        Schedule.run (State.next jwtExpiresAt) {} visited = some state → SessionLive state := by
  let Live (state : State) : Prop := Single state ∧ SessionLive state
  have start : Live {} := ⟨single_initial, sessionLive_of_none rfl⟩
  refine Schedule.throughout_iff_shown (fun held => held.2) ?_ ?_ start execution
  · intro state event after held step
    exact held.1.installsLive_iff held.2 step
  · intro state event after held step shown
    exact ⟨held.1.next step, shown⟩

/-- The connection is lost behind the welcome, and the session is made of it all the same. -/
def lostBeforeInstall : List Event :=
  .call :: welcomed 0 ++ [.gone 0, .marked 0 0 (.ok ())]

theorem session_live_iff_lostBeforeInstall : ∃ final,
    Schedule.run (State.next fun _ => none) {} lostBeforeInstall = some final ∧
      final.session.isSome = true ∧ final.online = [] ∧
      (Schedule.Throughout (State.next fun _ => none) InstallsLive {} lostBeforeInstall ↔
        ∀ visited state, visited <+: lostBeforeInstall →
          Schedule.run (State.next fun _ => none) {} visited = some state →
            SessionLive state) := by
  have runs : (Schedule.run (State.next fun _ => none) {} lostBeforeInstall).any
      (fun final => final.session.isSome && final.online == []) = true := by
    decide +kernel
  obtain ⟨final, execution, lost⟩ := (Option.any_eq_true ..).mp runs
  obtain ⟨there, offline⟩ := Bool.and_eq_true_iff.mp lost
  exact ⟨final, execution, there, eq_of_beq offline, session_live_iff execution⟩

end Session
end Gc
end DotaCollector
