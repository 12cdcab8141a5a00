import DotaCollector.Library.Schedule
import DotaCollector.Replays.ArchiveDest
import DotaCollector.Replays.Row

/-!
# The archive job

The replay of a parsed row is copied to the archive, the row is pointed at the copy, and the hot
object is deleted. Each of these steps may fail, with or without its effect, and the process may
stop after any of them. A destination which exists is taken for the copy, whatever it holds.
-/

namespace DotaCollector
namespace Archive

open Nullable

/-- A bucket and a key. -/
abbrev Location := String × String

/-- The objects of the stores with their bytes. -/
abbrev Objects := Location → Option (List UInt8)

/-! ## The row -/

/-- The rows which `listParsedUnarchived` selects. -/
def unarchived (row : ReplayRow) : Bool :=
  row.status = .parsed && row.archivedAt.isNone && row.s3Key.any (· ≠ "")

/-- Where the locator of a row points. -/
def location (env : Environment) (row : ReplayRow) : Location :=
  let bucket := (asString row.s3Bucket).getD ""
  ((parseObjectLocation (if bucket = "" then env.hotBucket else bucket)).bucket,
    row.s3Key.getD "")

def markReplayArchived (now : Time) (bucket key : String) (row : ReplayRow) : ReplayRow :=
  if row.archivedAt = none then
    { row with
      s3Bucket := some bucket
      s3Key := some key
      archivedAt := some now
      lastError := none
      updatedAt := now }
  else row

/-! ## The job -/

/-- What `archiveOne` computes before its first request. -/
structure ArchiveJob where
  source : Location
  destBucket : String
  destKey : String
  alreadyThere : Bool

def archiveJob (env : Environment) (row : ReplayRow) : ArchiveJob :=
  let dest := archiveDestination env
  let bucket := (asString row.s3Bucket).getD ""
  let srcBucket := if bucket = "" then env.hotBucket else bucket
  let key := row.s3Key.getD ""
  let destKey := joinObjectPrefix dest.folder key
  { source := ((parseObjectLocation srcBucket).bucket, key)
    destBucket := dest.bucket
    destKey
    alreadyThere := sameObjectBucket srcBucket dest.bucket && key = destKey }

def ArchiveJob.dest (job : ArchiveJob) : Location := (job.destBucket, job.destKey)

/-- How far a run has come. -/
inductive Phase where
  | checkDest
  | checkSource
  | copy
  | mark
  | delete
  | note (error : String)
  | done
  deriving DecidableEq

structure State where
  objects : Objects
  row : ReplayRow
  phase : Phase

/-- How a request ends: with its effect, with its effect and an exception, or with an exception
only. -/
inductive Response where
  | succeeds
  | effective
  | refused
  deriving DecidableEq

/-- A request is answered, at a time; an exception has a text. -/
structure Event where
  response : Response := .succeeds
  error : String := ""
  now : Time := 0
  deriving DecidableEq

/-- `objectExistsIn`: an empty object, or a request which fails, counts as no object. -/
def objectExistsIn (objects : Objects) (place : Location) (response : Response) : Bool :=
  response = .succeeds && (objects place).any (· ≠ [])

/-- The state after the next request of a run. -/
def next (job : ArchiveJob) (state : State) (event : Event) : Option State :=
  let { objects, row, phase } := state
  match phase with
  | .checkDest =>
      if objectExistsIn objects job.dest event.response then some { objects, row, phase := .mark }
      else some { objects, row, phase := .checkSource }
  | .checkSource =>
      if objectExistsIn objects job.source event.response then
        some { objects, row, phase := .copy }
      else
        some
          { objects
            row
            phase := .note ("replay object missing at " ++ job.source.1 ++ "/" ++ job.source.2) }
  | .copy =>
      let copied := Function.update objects job.dest (objects job.source)
      match event.response with
      | .succeeds => some { objects := copied, row, phase := .mark }
      | .effective => some { objects := copied, row, phase := .note event.error }
      | .refused => some { objects, row, phase := .note event.error }
  | .mark =>
      let marked := markReplayArchived event.now job.destBucket job.destKey row
      match event.response with
      | .succeeds =>
          some { objects, row := marked, phase := if job.alreadyThere then .done else .delete }
      | .effective => some { objects, row := marked, phase := .note event.error }
      | .refused => some { objects, row, phase := .note event.error }
  | .delete =>
      let deleted := Function.update objects job.source none
      match event.response with
      | .succeeds | .effective => some { objects := deleted, row, phase := .done }
      | .refused => some { objects, row, phase := .done }
  | .note error =>
      match event.response with
      | .succeeds | .effective =>
          some
            { objects
              row := ReplayPatch.set event.now { error := some error } row
              phase := .done }
      | .refused => some { objects, row, phase := .done }
  | .done => none

/-- The beginning of the job for a row. -/
def start (env : Environment) (row : ReplayRow) (objects : Objects) : State where
  objects := objects
  row := row
  phase := if (archiveJob env row).alreadyThere then .mark else .checkDest

/-! ## What is to be kept -/

/-- The locator names an object with the bytes, and a row which is not archived is selected
again. -/
structure Kept (env : Environment) (bytes : List UInt8) (state : State) : Prop where
  found : state.objects (location env state.row) = some bytes
  selectable : state.row.archivedAt = none → unarchived state.row = true

/-- Where the locator points once it is rewritten: the bucket's name is parsed again. -/
def ArchiveJob.written (job : ArchiveJob) : Location :=
  ((parseObjectLocation job.destBucket).bucket, job.destKey)

/-- There is no object, or an empty one. -/
def Free (objects : Objects) (place : Location) : Prop := ∀ bytes ∈ objects place, bytes = []

/-- The replay is in the archive already; or the place which the rewritten locator names holds its
bytes, and is not the source; or the destination is free, and is that place. -/
def KeepsBytes (job : ArchiveJob) (objects : Objects) (bytes : List UInt8) : Prop :=
  job.alreadyThere = true ∨ (objects job.written = some bytes ∧ job.written ≠ job.source) ∨
    (Free objects job.dest ∧ (job.written = job.dest ∨ bytes = []))

/-! ## One step -/

variable {env : Environment} {row : ReplayRow} {objects : Objects} {bytes : List UInt8}
  {state after : State} {event : Event}

/-- What holds of a run in each phase. -/
def Phase.Sound (env : Environment) (row : ReplayRow) (objects : Objects) (bytes : List UInt8)
    (state : State) : Phase → Prop
  | .checkDest | .checkSource =>
      (archiveJob env row).alreadyThere = false ∧ state.row = row ∧ state.objects = objects
  | .copy =>
      bytes ≠ [] ∧ (archiveJob env row).alreadyThere = false ∧ state.row = row ∧
        state.objects = objects
  | .mark =>
      state.row = row ∧ state.objects (archiveJob env row).written = some bytes ∧
        ((archiveJob env row).alreadyThere = false →
          (archiveJob env row).written ≠ (archiveJob env row).source)
  | .delete =>
      state.row.archivedAt ≠ none ∧ location env state.row = (archiveJob env row).written ∧
        (archiveJob env row).written ≠ (archiveJob env row).source
  | .note _ | .done => True

/-- A run keeps the bytes and is sound in its phase. -/
structure Safe (env : Environment) (row : ReplayRow) (objects : Objects) (bytes : List UInt8)
    (state : State) : Prop where
  kept : Kept env bytes state
  sound : state.phase.Sound env row objects bytes state

theorem destBucket_eq : (archiveJob env row).destBucket = (archiveDestination env).bucket := rfl

theorem alreadyThere_iff : (archiveJob env row).alreadyThere = true ↔
    (archiveJob env row).source.1 ≠ "" ∧
      (archiveJob env row).written = (archiveJob env row).source := by
  simp only [archiveJob, ArchiveJob.written, sameObjectBucket, Bool.and_eq_true, decide_eq_true_eq,
    Prod.mk.injEq]
  constructor
  · rintro ⟨⟨named, same⟩, key⟩
    exact ⟨named, same.symm, key.symm⟩
  · rintro ⟨named, same, key⟩
    exact ⟨⟨named, same.symm⟩, key.symm⟩

/-- The rewritten locator. -/
theorem location_marked (accepted : (resolveArchiveDestination env).2 = none) (now : Time)
    (unmarked : row.archivedAt = none) :
    location env (markReplayArchived now (archiveJob env row).destBucket
      (archiveJob env row).destKey row) = (archiveJob env row).written := by
  have named : (archiveJob env row).destBucket ≠ "" := by
    rw [destBucket_eq]
    exact bucket_ne_of_accepted accepted
  simp [markReplayArchived, unmarked, location, asString, nullif, named, ArchiveJob.written]

theorem archivedAt_marked {now : Time} {bucket key : String} (unmarked : row.archivedAt = none) :
    (markReplayArchived now bucket key row).archivedAt = some now := by
  rw [markReplayArchived, if_pos unmarked]

theorem objectExistsIn_eq_true {place : Location} {response : Response} :
    objectExistsIn objects place response = true ↔
      response = .succeeds ∧ ¬ Free objects place := by
  simp [objectExistsIn, Free, Option.any_eq_true]

theorem free_iff {place : Location} (here : objects place = some bytes) :
    Free objects place ↔ bytes = [] := by
  simp [Free, here]

/-- The copy leaves the source as it was. -/
theorem copied_source {job : ArchiveJob} (pointed : objects job.source = some bytes) :
    Function.update objects job.dest (objects job.source) job.source = some bytes := by
  rcases eq_or_ne job.source job.dest with same | ne
  · rw [← same, Function.update_self, pointed]
  · rw [Function.update_of_ne ne, pointed]

/-- After the copy the rewritten locator names the bytes. -/
theorem copied_written {job : ArchiveJob} (pointed : objects job.source = some bytes)
    (keeps : KeepsBytes job objects bytes) (apart : job.alreadyThere = false)
    (filled : bytes ≠ []) :
    Function.update objects job.dest (objects job.source) job.written = some bytes ∧
      job.written ≠ job.source := by
  rcases keeps with there | ⟨found, ne⟩ | ⟨free, same | empty⟩
  · rw [apart] at there
    cases there
  · refine ⟨?_, ne⟩
    rcases eq_or_ne job.written job.dest with same | ne
    · rw [same, Function.update_self, pointed]
    · rw [Function.update_of_ne ne, found]
  · refine ⟨by rw [same, Function.update_self, pointed], fun same_source => filled ?_⟩
    rw [← same, same_source] at free
    exact (free_iff pointed).mp free
  · exact absurd empty filled

theorem archivedAt_of_unarchived (selected : unarchived row = true) : row.archivedAt = none := by
  simp only [unarchived, Bool.and_eq_true, Option.isNone_iff_eq_none] at selected
  exact selected.1.2

/-- A request keeps the bytes when the beginning of the job does. -/
theorem Safe.next (safe : Safe env row objects bytes state)
    (accepted : (resolveArchiveDestination env).2 = none) (selected : unarchived row = true)
    (pointed : objects (archiveJob env row).source = some bytes)
    (keeps : KeepsBytes (archiveJob env row) objects bytes)
    (step : next (archiveJob env row) state event = some after) :
    Safe env row objects bytes after := by
  obtain ⟨stored, current, phase⟩ := state
  have unmarked := archivedAt_of_unarchived selected
  cases phase with
  | checkDest =>
      obtain ⟨apart, rfl, rfl⟩ := safe.sound
      simp only [Archive.next] at step
      split at step
      case isTrue found =>
        cases step
        refine ⟨⟨pointed, fun _ => selected⟩, ?_⟩
        rcases keeps with there | ⟨found, ne⟩ | ⟨free, -⟩
        · rw [apart] at there
          cases there
        · exact ⟨rfl, found, fun _ => ne⟩
        · exact absurd free (objectExistsIn_eq_true.mp found).2
      case isFalse =>
        cases step
        exact ⟨⟨pointed, fun _ => selected⟩, apart, rfl, rfl⟩
  | checkSource =>
      obtain ⟨apart, rfl, rfl⟩ := safe.sound
      simp only [Archive.next] at step
      split at step
      case isTrue found =>
        cases step
        have filled := mt (free_iff pointed).mpr (objectExistsIn_eq_true.mp found).2
        exact ⟨⟨pointed, fun _ => selected⟩, filled, apart, rfl, rfl⟩
      case isFalse =>
        cases step
        exact ⟨⟨pointed, fun _ => selected⟩, trivial⟩
  | copy =>
      obtain ⟨filled, apart, rfl, rfl⟩ := safe.sound
      have source := copied_source pointed
      have written := copied_written pointed keeps apart filled
      simp only [Archive.next] at step
      split at step
      case h_1 =>
        cases step
        exact ⟨⟨source, fun _ => selected⟩, rfl, written.1, fun _ => written.2⟩
      case h_2 =>
        cases step
        exact ⟨⟨source, fun _ => selected⟩, trivial⟩
      case h_3 =>
        cases step
        exact ⟨⟨pointed, fun _ => selected⟩, trivial⟩
  | mark =>
      obtain ⟨same, found, apart⟩ := safe.sound
      replace same : current = row := same
      subst same
      have renamed := location_marked accepted event.now unmarked
      have stamped : (markReplayArchived event.now (archiveJob env current).destBucket
          (archiveJob env current).destKey current).archivedAt ≠ none := by
        rw [archivedAt_marked unmarked]
        exact Option.some_ne_none _
      have kept : ∀ phase, Kept env bytes { objects := stored, row := _, phase } :=
        fun phase => ⟨(congrArg stored renamed).trans found, fun none => absurd none stamped⟩
      simp only [Archive.next] at step
      split at step
      case h_1 =>
        cases step
        refine ⟨kept _, ?_⟩
        cases there : (archiveJob env current).alreadyThere with
        | true => trivial
        | false => exact ⟨stamped, renamed, apart there⟩
      case h_2 =>
        cases step
        exact ⟨kept _, trivial⟩
      case h_3 =>
        cases step
        exact ⟨⟨safe.kept.found, safe.kept.selectable⟩, trivial⟩
  | delete =>
      obtain ⟨stamped, renamed, ne⟩ := safe.sound
      have found := safe.kept.found
      have deleted : Function.update stored (archiveJob env row).source none
          (location env current) = some bytes := by
        replace renamed : location env current = (archiveJob env row).written := renamed
        rw [Function.update_of_ne (renamed ▸ ne)]
        exact found
      simp only [Archive.next] at step
      split at step
      case h_3 =>
        cases step
        exact ⟨⟨found, safe.kept.selectable⟩, trivial⟩
      all_goals
        cases step
        exact ⟨⟨deleted, safe.kept.selectable⟩, trivial⟩
  | note error =>
      simp only [Archive.next] at step
      split at step
      all_goals
        cases step
        exact ⟨⟨safe.kept.found, safe.kept.selectable⟩, trivial⟩
  | done => cases step

/-! ## Every run -/

theorem safe_start (selected : unarchived row = true)
    (pointed : objects (archiveJob env row).source = some bytes) :
    Safe env row objects bytes (start env row objects) where
  kept := ⟨pointed, fun _ => selected⟩
  sound := by
    unfold start
    dsimp only
    split
    case isTrue there =>
      refine ⟨rfl, ?_, fun apart => ?_⟩
      · rw [(alreadyThere_iff.mp there).2]
        exact pointed
      · rw [there] at apart
        cases apart
    case isFalse apart => exact ⟨Bool.eq_false_of_not_eq_true apart, rfl, rfl⟩

/-- Where the bytes are not under the rewritten locator, or lie at the source, the deletion of the
source leaves the row without them. -/
theorem not_kept_deleted {stored : Objects} (now : Time)
    (accepted : (resolveArchiveDestination env).2 = none) (unmarked : row.archivedAt = none)
    (lost : ¬ (stored (archiveJob env row).written = some bytes ∧
      (archiveJob env row).written ≠ (archiveJob env row).source)) :
    ¬ Kept env bytes
      { objects := Function.update stored (archiveJob env row).source none
        row :=
          markReplayArchived now (archiveJob env row).destBucket (archiveJob env row).destKey row
        phase := .done } := by
  intro kept
  have found : Function.update stored (archiveJob env row).source none (location env
      (markReplayArchived now (archiveJob env row).destBucket (archiveJob env row).destKey row)) =
        some bytes := kept.found
  rw [location_marked accepted now unmarked] at found
  rcases eq_or_ne (archiveJob env row).written (archiveJob env row).source with same | ne
  · rw [same, Function.update_self] at found
    cases found
  · rw [Function.update_of_ne ne] at found
    exact lost ⟨found, ne⟩

/-- Unless the beginning of the job keeps the bytes, a run without failures loses them. -/
theorem exists_lost (accepted : (resolveArchiveDestination env).2 = none)
    (selected : unarchived row = true)
    (pointed : objects (archiveJob env row).source = some bytes)
    (loses : ¬ KeepsBytes (archiveJob env row) objects bytes) :
    ∃ events final, Schedule.run (next (archiveJob env row)) (start env row objects) events =
      some final ∧ ¬ Kept env bytes final := by
  have unmarked := archivedAt_of_unarchived selected
  obtain ⟨apart, loses⟩ := not_or.mp loses
  obtain ⟨lost, taken⟩ := not_or.mp loses
  have first : start env row objects = { objects, row, phase := .checkDest } := by
    rw [start, if_neg apart]
  by_cases free : Free objects (archiveJob env row).dest
  · obtain ⟨elsewhere, filled⟩ := not_or.mp fun kept => taken ⟨free, kept⟩
    have absent : objectExistsIn objects (archiveJob env row).dest .succeeds = false :=
      Bool.eq_false_of_not_eq_true fun found => (objectExistsIn_eq_true.mp found).2 free
    have present : objectExistsIn objects (archiveJob env row).source .succeeds = true :=
      objectExistsIn_eq_true.mpr ⟨rfl, mt (free_iff pointed).mp filled⟩
    have copied : ¬ (Function.update objects (archiveJob env row).dest
        (objects (archiveJob env row).source) (archiveJob env row).written = some bytes ∧
          (archiveJob env row).written ≠ (archiveJob env row).source) := by
      rwa [Function.update_of_ne elsewhere]
    refine ⟨List.replicate 5 {}, _, ?_, not_kept_deleted 0 accepted unmarked copied⟩
    rw [first]
    simp [List.replicate, Schedule.run_cons, next, absent, present, apart]
  · have present : objectExistsIn objects (archiveJob env row).dest .succeeds = true :=
      objectExistsIn_eq_true.mpr ⟨rfl, free⟩
    refine ⟨List.replicate 3 {}, _, ?_, not_kept_deleted 0 accepted unmarked lost⟩
    rw [first]
    simp [List.replicate, Schedule.run_cons, next, present, apart]

/-- For a selected row which points at an object, every run of the job, stopped after any request
and whatever its requests answer, keeps the bytes under the row's locator, and an unarchived row
selected, exactly when the beginning of the job does not take other bytes for the copy. -/
theorem archive_keeps_bytes_iff (accepted : (resolveArchiveDestination env).2 = none)
    (selected : unarchived row = true) (pointed : objects (location env row) = some bytes) :
    (∀ events final, Schedule.run (next (archiveJob env row)) (start env row objects) events =
      some final → Kept env bytes final) ↔ KeepsBytes (archiveJob env row) objects bytes := by
  constructor
  · intro kept
    by_contra loses
    obtain ⟨events, final, execution, lost⟩ := exists_lost accepted selected pointed loses
    exact lost (kept events final execution)
  · intro keeps events final execution
    have safe : Safe env row objects bytes final :=
      Schedule.run_invariant (fun safe step => safe.next accepted selected pointed keeps step)
        (safe_start selected pointed) execution
    exact safe.kept

/-! ## A hot replay -/

def sameBucket : Environment where
  hotBucket := "hot"

def hotReplay : ReplayRow where
  status := .parsed
  s3Bucket := some "hot"
  s3Key := some "replays/1/1_2.dem.bz2"

/-- The hot object, and perhaps another one where it is to be archived. -/
def hotObjects (archived : Option (List UInt8)) (place : Location) : Option (List UInt8) :=
  if place = ("hot", "replays/1/1_2.dem.bz2") then some [2]
  else if place = ("hot", "cold/replays/1/1_2.dem.bz2") then archived
  else none

/-- With nothing in the archive the job copies the replay, marks the row and deletes the hot
object, and the row points at the same bytes. -/
theorem archive_keeps_hot_replay :
    ∃ final ∈ Schedule.run (next (archiveJob sameBucket hotReplay))
        (start sameBucket hotReplay (hotObjects none)) (List.replicate 5 {}),
      Kept sameBucket [2] final ∧ final.row.archivedAt = some 0 ∧
        final.objects (location sameBucket hotReplay) = none := by
  have accepted : (resolveArchiveDestination sameBucket).2 = none := by decide +kernel
  have selected : unarchived hotReplay = true := by decide
  have pointed : hotObjects none (location sameBucket hotReplay) = some [2] := by decide +kernel
  have absent : hotObjects none (archiveJob sameBucket hotReplay).dest = none := by decide +kernel
  have free : Free (hotObjects none) (archiveJob sameBucket hotReplay).dest := by
    intro bytes here
    rw [absent] at here
    cases here
  have keeps := (archive_keeps_bytes_iff accepted selected pointed).mpr
    (.inr (.inr ⟨free, .inl (by decide +kernel)⟩))
  have deletes : ∃ final ∈ Schedule.run (next (archiveJob sameBucket hotReplay))
      (start sameBucket hotReplay (hotObjects none)) (List.replicate 5 {}),
      final.row.archivedAt = some 0 ∧
        final.objects (location sameBucket hotReplay) = none := by decide +kernel
  obtain ⟨final, execution, marked, gone⟩ := deletes
  exact ⟨final, execution, keeps _ final execution, marked, gone⟩

/-- A download has written the replay again, and the archive has the object of the first one: the
job takes it for the copy and deletes the new bytes. -/
theorem archive_deletes_new_replay :
    (resolveArchiveDestination sameBucket).2 = none ∧ unarchived hotReplay = true ∧
      hotObjects (some [1]) (location sameBucket hotReplay) = some [2] ∧
      ∃ final ∈ Schedule.run (next (archiveJob sameBucket hotReplay))
          (start sameBucket hotReplay (hotObjects (some [1]))) [{}, {}, {}],
        final.objects (location sameBucket final.row) = some [1] ∧
          final.objects (location sameBucket hotReplay) = none := by
  decide +kernel

end Archive
end DotaCollector
