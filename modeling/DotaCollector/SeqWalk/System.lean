import DotaCollector.Library.Schedule
import DotaCollector.SeqWalk.Cursor

/-!
# The sequence walk

Walkers claim windows and advance the cursor; window jobs fetch a page, persist its professional
matches, and bump or rewind the cursor. A step of the system is one statement of one of them, or a
new match on the stream. How many windows a walker claims in one turn, and when, is left open: the
cooldown and the parallelism only delay a claim.
-/

namespace DotaCollector
namespace SeqWalk

/-- How far a run of `fetch_seq_window` has come. -/
inductive WindowPhase where
  | queued
  | running
  | fetched (page : List SeqMatch)
  | closing
  deriving DecidableEq

/-- A window job, keyed by its start; `attempts` counts the runs which have thrown. -/
structure WindowJob where
  attempts : Nat := 0
  phase : WindowPhase := .queued
  deriving DecidableEq

def maxAttempts : Nat := 25

/-- `jobKeyIsAlive`: the job is locked by a run, or has attempts left. -/
def WindowJob.alive (job : WindowJob) : Bool :=
  job.phase != .queued || job.attempts < maxAttempts

/-- A walker within `claimSeqWalkWindow`, with the cursor it has read. -/
inductive Claim where
  | check (cursor : Nat)
  | enqueue (cursor : Nat)
  | advance (cursor : Nat)
  deriving DecidableEq

/-- The state of the walk. A page is recorded with the start of its window when it is committed. -/
structure State where
  published : List SeqMatch
  cursor : Nat
  jobs : Nat → Option WindowJob := fun _ => none
  walkers : Nat → Option Claim := fun _ => none
  persisted : List SeqMatch := []
  pages : List (Nat × List SeqMatch) := []

/-- The steps of the walk; a window is named by its start. -/
inductive Event where
  | publish (raw : SeqMatch)
  | read (walker : Nat)
  | check (walker : Nat) (answered : Bool)
  | enqueue (walker : Nat)
  | advance (walker : Nat)
  | quit (walker : Nat)
  | start (startAt : Nat)
  | fetch (startAt : Nat)
  | write (startAt : Nat)
  | finish (startAt : Nat)
  | throw (startAt : Nat)
  | noReadyKey (startAt : Nat)

namespace State

def setJob (state : State) (startAt : Nat) (job : Option WindowJob) : State :=
  { state with jobs := Function.update state.jobs startAt job }

def setWalker (state : State) (walker : Nat) (claim : Option Claim) : State :=
  { state with walkers := Function.update state.walkers walker claim }

/-- A question the database does not answer counts as no. -/
def jobKeyIsAlive (state : State) (startAt : Nat) (answered : Bool) : Bool :=
  answered && (state.jobs startAt).any WindowJob.alive

/-- `unsafe_dedupe`: a job with the key of an existing one is not added. -/
def enqueueFetchSeqWindow (state : State) (startAt : Nat) : State :=
  match state.jobs startAt with
  | some _ => state
  | none => state.setJob startAt (some {})

def casAdvanceSeqWalkCursor (state : State) (expected next : Nat) : State :=
  if state.cursor = expected then { state with cursor := next } else state

/-- The writes of `runFetchSeqWindow`: of an empty page the rewind, of any other the transaction
with its matches and the bump. -/
def writePage (state : State) (startAt : Nat) (page : List SeqMatch) : State :=
  if page.isEmpty then { state with cursor := rewindSeqWalkCursor startAt }
  else
    { state with
      persisted := professionalSeqMatches page ++ state.persisted
      cursor :=
        match highestSeqNum page with
        | none => state.cursor
        | some highestSeq => bumpSeqWalkCursor state.cursor highestSeq
      pages := (startAt, page) :: state.pages }

/-- A run which throws leaves its job to the next attempt, if there is one. -/
def WindowJob.fail (job : WindowJob) : WindowJob :=
  { attempts := job.attempts + 1 }

/-- The state after one step, with windows of `batchSize`. -/
def next (batchSize : Nat) (state : State) : Event → Option State
  | .publish raw =>
      if state.published.all (·.matchSeqNum < raw.matchSeqNum) then
        some { state with published := state.published ++ [raw] }
      else none
  | .read walker =>
      match state.walkers walker with
      | some _ => none
      | none =>
          if state.cursor < 1 then none
          else some (state.setWalker walker (some (.check state.cursor)))
  | .check walker answered =>
      match state.walkers walker with
      | some (.check cursor) =>
          some (state.setWalker walker (some
            (if state.jobKeyIsAlive cursor answered then .advance cursor
              else .enqueue cursor)))
      | _ => none
  | .enqueue walker =>
      match state.walkers walker with
      | some (.enqueue cursor) =>
          some ((state.enqueueFetchSeqWindow cursor).setWalker walker (some (.advance cursor)))
      | _ => none
  | .advance walker =>
      match state.walkers walker with
      | some (.advance cursor) =>
          some ((state.casAdvanceSeqWalkCursor cursor (claimAdvance cursor batchSize)).setWalker
            walker none)
      | _ => none
  | .quit walker => some (state.setWalker walker none)
  | .start startAt =>
      match state.jobs startAt with
      | some ⟨attempts, .queued⟩ =>
          if attempts < maxAttempts then some (state.setJob startAt (some ⟨attempts, .running⟩))
          else none
      | _ => none
  | .fetch startAt =>
      match state.jobs startAt with
      | some ⟨attempts, .running⟩ =>
          some (state.setJob startAt (some ⟨attempts,
            .fetched (getMatchHistoryBySequenceNum state.published startAt batchSize)⟩))
      | _ => none
  | .write startAt =>
      match state.jobs startAt with
      | some ⟨attempts, .fetched page⟩ =>
          some ((state.writePage startAt page).setJob startAt (some ⟨attempts, .closing⟩))
      | _ => none
  | .finish startAt =>
      match state.jobs startAt with
      | some ⟨_, .closing⟩ => some (state.setJob startAt none)
      | _ => none
  | .throw startAt =>
      match state.jobs startAt with
      | none | some ⟨_, .queued⟩ => none
      | some job => some (state.setJob startAt (some (WindowJob.fail job)))
  | .noReadyKey startAt =>
      match state.jobs startAt with
      | some ⟨_, .running⟩ => some (state.setJob startAt (some {}))
      | _ => none

/-- A walk begins with a cursor and a stream. -/
def initial (cursor : Nat) (published : List SeqMatch) : State where
  published
  cursor

end State

end SeqWalk
end DotaCollector
