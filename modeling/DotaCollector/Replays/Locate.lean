import DotaCollector.Library.FirstOccurrences
import DotaCollector.Library.Quoted
import DotaCollector.Replays.Archive
import DotaCollector.Replays.Jobs

/-!
# Finding a replay again

A replay is looked for where its row points, then under its hot key, and then in the archive.
While the archive job moves it, one of these places holds it after every request.
-/

namespace DotaCollector
namespace Archive

open FirstOccurrences Schedule

/-! ## The candidates -/

def objectBucket (env : Environment) : String := (parseObjectLocation env.hotBucket).bucket

/-- The key of a replay in the archive, if the environment names one. -/
def archiveKey (env : Environment) (hotKey : String) : Option String :=
  if (resolveArchiveDestination env).2 = none then
    some (joinObjectPrefix (archiveDestination env).folder hotKey)
  else none

/-- The candidate of a row's locator. -/
def existingHit (env : Environment) (hotKey : String) (bucket key : Option String) :
    Option ReplayObjectHit :=
  let existingKey := trim (key.getD "")
  if existingKey = "" then none
  else
    let rawBucket := trim (bucket.getD "")
    let bucket :=
      if rawBucket = "" then objectBucket env else (parseObjectLocation rawBucket).bucket
    some
      { bucket
        key := existingKey
        archived := (archiveKey env hotKey).any fun destKey =>
          bucket = (archiveDestination env).bucket && existingKey = destKey }

def hotHit (env : Environment) (hotKey : String) : ReplayObjectHit where
  bucket := objectBucket env
  key := hotKey
  archived := false

def coldHit (env : Environment) (destKey : String) : ReplayObjectHit where
  bucket := (archiveDestination env).bucket
  key := destKey
  archived := true

/-- The name under which a candidate is seen. -/
def hitId (hit : ReplayObjectHit) : String := hit.bucket ++ "\x00" ++ hit.key

/-- What `replayObjectCandidates` pushes. -/
def pushed (env : Environment) (hotKey : String) (bucket key : Option String) :
    List ReplayObjectHit :=
  (existingHit env hotKey bucket key).toList ++ hotHit env hotKey ::
    (archiveKey env hotKey).toList.map (coldHit env)

def replayObjectCandidates (env : Environment) (hotKey : String) (bucket key : Option String) :
    List ReplayObjectHit :=
  firsts hitId ((pushed env hotKey bucket key).filter fun hit => hit.bucket ≠ "" && hit.key ≠ "")

/-- The store which `objectStoreForBucket` opens, and the key in it. -/
def hitPlace (hit : ReplayObjectHit) : Location :=
  ((parseObjectLocation hit.bucket).bucket, hit.key)

/-- The first candidate which its request finds; the stores may change from one request to the
next. -/
def locateReplayObject (env : Environment) (view : ReplayObjectHit → Objects)
    (answer : ReplayObjectHit → Response) (hotKey : String) (bucket key : Option String) :
    Option ReplayObjectHit :=
  (replayObjectCandidates env hotKey bucket key).find? fun hit =>
    objectExistsIn (view hit) (hitPlace hit) (answer hit)

/-! ## Names -/

/-- A place whose names are read back as they are; no setting and no column holds the separator. -/
structure PlainPlace (place : Location) : Prop where
  named : place.1 ≠ ""
  parsed : (parseObjectLocation place.1).bucket = place.1
  separated : '\x00' ∉ place.1.toList
  keyed : place.2 ≠ ""
  trimmed : trim place.2 = place.2

/-- Candidates with one name are one place. -/
theorem hitPlace_eq_of_hitId {hit other : ReplayObjectHit} (plain : '\x00' ∉ hit.bucket.toList)
    (plainOther : '\x00' ∉ other.bucket.toList) (same : hitId hit = hitId other) :
    hitPlace hit = hitPlace other := by
  have chars := congrArg String.toList same
  simp only [hitId, String.toList_append, List.append_assoc] at chars
  obtain ⟨buckets, -, keys⟩ := Quoted.eq_of_append_cons plain plainOther chars
  rw [hitPlace, hitPlace, String.toList_injective buckets, String.toList_injective keys]

theorem trim_trim (text : String) : trim (trim text) = trim text := by
  have kept : (List.rdropWhile isSpace (List.dropWhile isSpace text.toList)).dropWhile isSpace =
      List.rdropWhile isSpace (List.dropWhile isSpace text.toList) := by
    rw [List.dropWhile_eq_self_iff]
    intro filled blank
    have front := List.rdropWhile_prefix (p := isSpace) (l := List.dropWhile isSpace text.toList)
    rw [front.getElem filled] at blank
    exact List.dropWhile_get_zero_not isSpace text.toList (filled.trans_le front.length_le) blank
  simp only [trim, dropEnd, dropStart, String.toList_ofList, kept, List.rdropWhile_idempotent]

theorem parseObjectLocation_trim (raw : String) :
    parseObjectLocation (trim raw) = parseObjectLocation raw := by
  simp only [parseObjectLocation, trim_trim]

theorem getD_asString (text : Option String) : (asString text).getD "" = text.getD "" := by
  by_cases empty : text = some ""
  · rw [empty]
    rfl
  · rw [asString, Nullable.nullif_of_ne empty]

/-- The candidate of a row is the place where the row points. -/
theorem existingHit_of_location {env : Environment} {seen : ReplayRow} {place : Location}
    (hotKey : String) (pointed : location env seen = place) (plain : PlainPlace place) :
    ∃ hit, existingHit env hotKey (asString seen.s3Bucket) (asString seen.s3Key) = some hit ∧
      hit.bucket = place.1 ∧ hit.key = place.2 := by
  have key : (asString seen.s3Key).getD "" = place.2 := by
    rw [getD_asString, ← pointed]
    rfl
  have bucket : place.1 = (parseObjectLocation
      (if (asString seen.s3Bucket).getD "" = "" then env.hotBucket
        else (asString seen.s3Bucket).getD "")).bucket := by
    rw [← pointed]
    rfl
  rw [existingHit, key, plain.trimmed, if_neg plain.keyed]
  refine ⟨_, rfl, ?_, rfl⟩
  generalize (asString seen.s3Bucket).getD "" = raw at bucket ⊢
  have blank : trim "" = "" := by decide +kernel
  by_cases empty : raw = ""
  · subst empty
    rw [if_pos rfl] at bucket
    simp only [blank, if_true]
    exact bucket.symm
  · rw [if_neg empty] at bucket
    have filled : trim raw ≠ "" := by
      intro spaces
      rw [← parseObjectLocation_trim, spaces] at bucket
      exact plain.named (bucket.trans (by decide +kernel))
    simp only [filled, if_false, parseObjectLocation_trim]
    exact bucket.symm

/-! ## The objects during a run -/

variable {env : Environment} {row : ReplayRow} {objects : Objects} {bytes : List UInt8}
  {state after : State} {event : Event}

/-- The bytes lie at the source, or it is empty and they lie in the archive; and the row points at
one of the two. -/
structure Stored (env : Environment) (row : ReplayRow) (objects : Objects) (bytes : List UInt8)
    (state : State) : Prop where
  safe : Safe env row objects bytes state
  source : state.objects (archiveJob env row).source = some bytes ∨
    state.objects (archiveJob env row).source = none ∧
      state.objects (archiveJob env row).written = some bytes
  written : Free state.objects (archiveJob env row).written ∨
    state.objects (archiveJob env row).written = some bytes
  placed : location env state.row = (archiveJob env row).source ∨
    location env state.row = (archiveJob env row).written

/-- What a request changes: a copy and a deletion change the objects, and only the new locator moves
the row. -/
theorem next_changes (env : Environment) {job : ArchiveJob}
    (step : next job state event = some after) :
    (after.objects = state.objects ∨
      state.phase = .copy ∧
        after.objects = Function.update state.objects job.dest (state.objects job.source) ∨
      state.phase = .delete ∧ after.objects = Function.update state.objects job.source none) ∧
    (location env after.row = location env state.row ∨
      state.phase = .mark ∧
        after.row = markReplayArchived event.now job.destBucket job.destKey state.row) := by
  obtain ⟨stored, current, phase⟩ := state
  cases phase with
  | checkDest | checkSource =>
      simp only [Archive.next] at step
      split at step
      all_goals
        cases step
        exact ⟨.inl rfl, .inl rfl⟩
  | copy =>
      simp only [Archive.next] at step
      split at step
      case h_3 =>
        cases step
        exact ⟨.inl rfl, .inl rfl⟩
      all_goals
        cases step
        exact ⟨.inr (.inl ⟨rfl, rfl⟩), .inl rfl⟩
  | mark =>
      simp only [Archive.next] at step
      split at step
      case h_3 =>
        cases step
        exact ⟨.inl rfl, .inl rfl⟩
      all_goals
        cases step
        exact ⟨.inl rfl, .inr ⟨rfl, rfl⟩⟩
  | delete =>
      simp only [Archive.next] at step
      split at step
      case h_3 =>
        cases step
        exact ⟨.inl rfl, .inl rfl⟩
      all_goals
        cases step
        exact ⟨.inr (.inr ⟨rfl, rfl⟩), .inl rfl⟩
  | note error =>
      simp only [Archive.next] at step
      split at step
      all_goals
        cases step
        exact ⟨.inl rfl, .inl rfl⟩
  | done => cases step

/-- The objects after a request: those before it, or with both places filled, or with the source
deleted and the copy kept. -/
theorem Safe.next_objects (safe : Safe env row objects bytes state)
    (pointed : objects (archiveJob env row).source = some bytes)
    (keeps : KeepsBytes (archiveJob env row) objects bytes)
    (step : Archive.next (archiveJob env row) state event = some after) :
    after.objects = state.objects ∨
      after.objects (archiveJob env row).written = some bytes ∧
        (after.objects (archiveJob env row).source = some bytes ∨
          after.objects (archiveJob env row).source = none) := by
  obtain ⟨stored, current, phase⟩ := state
  have sound := safe.sound
  rcases (next_changes env step).1 with same | ⟨rfl, copied⟩ | ⟨rfl, deleted⟩
  · exact .inl same
  · obtain ⟨filled, apart, rfl, rfl⟩ := sound
    rw [copied]
    exact .inr ⟨(copied_written pointed keeps apart filled).1, .inl (copied_source pointed)⟩
  · obtain ⟨-, renamed, ne⟩ := sound
    have found := safe.kept.found
    rw [renamed] at found
    rw [deleted]
    refine .inr ⟨?_, .inr (Function.update_self ..)⟩
    rw [Function.update_of_ne ne]
    exact found

theorem Stored.next (stored : Stored env row objects bytes state)
    (accepted : (resolveArchiveDestination env).2 = none) (selected : unarchived row = true)
    (pointed : objects (archiveJob env row).source = some bytes)
    (keeps : KeepsBytes (archiveJob env row) objects bytes)
    (step : Archive.next (archiveJob env row) state event = some after) :
    Stored env row objects bytes after := by
  have placed : location env after.row = (archiveJob env row).source ∨
      location env after.row = (archiveJob env row).written := by
    rcases (next_changes env step).2 with same | ⟨marking, marked⟩
    · rw [same]
      exact stored.placed
    · have sound := stored.safe.sound
      rw [marking] at sound
      rw [marked, sound.1]
      exact .inr (location_marked accepted event.now (archivedAt_of_unarchived selected))
  have safe := stored.safe.next accepted selected pointed keeps step
  rcases stored.safe.next_objects pointed keeps step with same | ⟨written, source⟩
  · exact ⟨safe, same ▸ stored.source, same ▸ stored.written, placed⟩
  · exact ⟨safe, source.imp_right fun none => ⟨none, written⟩, .inr written, placed⟩

theorem stored_start (selected : unarchived row = true)
    (pointed : objects (archiveJob env row).source = some bytes)
    (keeps : KeepsBytes (archiveJob env row) objects bytes)
    (same : (archiveJob env row).written = (archiveJob env row).dest) :
    Stored env row objects bytes (start env row objects) where
  safe := safe_start selected pointed
  source := .inl pointed
  written := by
    rcases keeps with there | ⟨found, -⟩ | ⟨free, -⟩
    · right
      rw [(alreadyThere_iff.mp there).2]
      exact pointed
    · exact .inr found
    · left
      rw [same]
      exact free
  placed := .inl rfl

/-- What lies in the archive stays there. -/
theorem written_of_run (accepted : (resolveArchiveDestination env).2 = none)
    (selected : unarchived row = true)
    (pointed : objects (archiveJob env row).source = some bytes)
    (keeps : KeepsBytes (archiveJob env row) objects bytes)
    (stored : Stored env row objects bytes state)
    (written : state.objects (archiveJob env row).written = some bytes) {events : List Event}
    (execution : run (next (archiveJob env row)) state events = some after) :
    after.objects (archiveJob env row).written = some bytes := by
  induction events generalizing state with
  | nil =>
      cases execution
      exact written
  | cons event events ih =>
      obtain ⟨middle, step, rest⟩ := run_cons_eq_some.mp execution
      refine ih (stored.next accepted selected pointed keeps step) ?_ rest
      rcases stored.safe.next_objects pointed keeps step with same | ⟨kept, -⟩
      · rw [same]
        exact written
      · exact kept

/-- An object at one of the two places is the replay. -/
theorem Stored.bytes_of_not_free (stored : Stored env row objects bytes state) {place : Location}
    (placed : place = (archiveJob env row).source ∨ place = (archiveJob env row).written)
    (taken : ¬ Free state.objects place) : state.objects place = some bytes := by
  rcases placed with rfl | rfl
  · rcases stored.source with here | ⟨deleted, -⟩
    · exact here
    · refine absurd (fun other listed => ?_) taken
      rw [deleted] at listed
      cases listed
  · exact stored.written.resolve_left taken

/-! ## The search -/

theorem hitPlace_of_plain {hit : ReplayObjectHit} {place : Location}
    (same : hit.bucket = place.1 ∧ hit.key = place.2) (plain : PlainPlace place) :
    hitPlace hit = place := by
  rw [hitPlace, same.1, same.2, plain.parsed]

/-- The candidates for a row of the run: where it points, the hot object, and the archived one. -/
theorem replayObjectCandidates_of_row {seen : ReplayRow} {hotKey : String} {place : Location}
    (accepted : (resolveArchiveDestination env).2 = none)
    (hot : location env row = (objectBucket env, hotKey))
    (plainSource : PlainPlace (location env row)) (plainDest : PlainPlace (archiveJob env row).dest)
    (pointed : location env seen = place) (plain : PlainPlace place) :
    ∃ first cold, hitPlace first = place ∧ hitPlace cold = (archiveJob env row).dest ∧
      hitPlace (hotHit env hotKey) = location env row ∧
      (∀ hit ∈ [first, hotHit env hotKey, cold], '\x00' ∉ hit.bucket.toList) ∧
      replayObjectCandidates env hotKey (asString seen.s3Bucket) (asString seen.s3Key) =
        firsts hitId [first, hotHit env hotKey, cold] := by
  obtain ⟨first, listed, bucket, key⟩ := existingHit_of_location hotKey pointed plain
  have same : row.s3Key.getD "" = hotKey := congrArg Prod.snd hot
  have archived : archiveKey env hotKey = some (archiveJob env row).destKey := by
    rw [archiveKey, if_pos accepted, archiveJob, same]
  have hotSame : (hotHit env hotKey).bucket = (location env row).1 ∧
      (hotHit env hotKey).key = (location env row).2 := by
    rw [hot]
    exact ⟨rfl, rfl⟩
  refine ⟨first, coldHit env (archiveJob env row).destKey,
    hitPlace_of_plain ⟨bucket, key⟩ plain, hitPlace_of_plain ⟨rfl, rfl⟩ plainDest,
    hitPlace_of_plain hotSame plainSource, ?_, ?_⟩
  · rintro hit (_ | ⟨_, _ | ⟨_, _ | ⟨_, ⟨⟩⟩⟩⟩)
    · exact bucket ▸ plain.separated
    · exact hotSame.1 ▸ plainSource.separated
    · exact plainDest.separated
  · have named : (hotHit env hotKey).bucket ≠ "" := hotSame.1 ▸ plainSource.named
    have keyed : (hotHit env hotKey).key ≠ "" := hotSame.2 ▸ plainSource.keyed
    have coldNamed : (coldHit env (archiveJob env row).destKey).bucket ≠ "" := plainDest.named
    have coldKeyed : (coldHit env (archiveJob env row).destKey).key ≠ "" := plainDest.keyed
    rw [replayObjectCandidates, pushed, listed, archived]
    simp [bucket, key, plain.named, plain.keyed, named, keyed, coldNamed, coldKeyed]

/-- A candidate with the place of a listed one. -/
theorem exists_candidate {hits : List ReplayObjectHit} {hit : ReplayObjectHit}
    (plain : ∀ hit ∈ hits, '\x00' ∉ hit.bucket.toList) (listed : hit ∈ hits) :
    ∃ candidate ∈ firsts hitId hits, hitPlace candidate = hitPlace hit := by
  have named : hitId hit ∈ (firsts hitId hits).map hitId :=
    mem_keys_firsts.mpr (List.mem_map_of_mem listed)
  obtain ⟨candidate, kept, same⟩ := List.mem_map.mp named
  exact ⟨candidate, kept,
    hitPlace_eq_of_hitId (plain candidate (firsts_subset kept)) (plain hit listed) same⟩

/-- The first object is the replay when every object asked for is. -/
theorem find_replay {hits : List ReplayObjectHit} {view : ReplayObjectHit → Objects}
    (filled : bytes ≠ []) (present : ∃ hit ∈ hits, view hit (hitPlace hit) = some bytes)
    (sound : ∀ hit ∈ hits, ¬ Free (view hit) (hitPlace hit) →
      view hit (hitPlace hit) = some bytes) :
    ∃ hit, hits.find? (fun hit => objectExistsIn (view hit) (hitPlace hit) .succeeds) = some hit ∧
      view hit (hitPlace hit) = some bytes := by
  obtain ⟨stored, listed, here⟩ := present
  have exists_found : ∃ hit ∈ hits, objectExistsIn (view hit) (hitPlace hit) .succeeds = true :=
    ⟨stored, listed, objectExistsIn_eq_true.mpr ⟨rfl, mt (free_iff here).mp filled⟩⟩
  obtain ⟨hit, found⟩ := Option.isSome_iff_exists.mp (List.find?_isSome.mpr exists_found)
  have taken := List.find?_some
    (p := fun hit => objectExistsIn (view hit) (hitPlace hit) .succeeds) found
  exact ⟨hit, found,
    sound hit (List.mem_of_find?_eq_some found) (objectExistsIn_eq_true.mp taken).2⟩

end Archive
end DotaCollector
