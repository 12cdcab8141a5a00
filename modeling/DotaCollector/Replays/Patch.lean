import DotaCollector.Library.Patches
import DotaCollector.Library.Table
import DotaCollector.Replays.Row

/-!
# Patches of a replay row

`updateReplay` takes fields that are absent, null or a value, and writes each of them through
`COALESCE`. So an error, or the time of the next attempt, that a caller means to clear stays.
-/

namespace DotaCollector

open Nullable

/-- The argument of `updateReplay` as its callers write it. -/
structure ReplayPatchInput where
  status : Option ReplayStatus := none
  cluster : PatchField Int := .undefined
  replaySalt : PatchField Int := .undefined
  replayState : PatchField Int := .undefined
  sourceUrl : PatchField String := .undefined
  s3Bucket : PatchField String := .undefined
  s3Key : PatchField String := .undefined
  bytes : PatchField Int := .undefined
  error : PatchField String := .undefined
  steamAccountId : PatchField Int := .undefined
  proxyId : PatchField Int := .undefined
  storedAt : PatchField Time := .undefined
  parserVersion : PatchField Int := .undefined
  parsedAt : PatchField Time := .undefined
  nextAttemptAt : PatchField Time := .undefined
  bumpAttempt : Bool := false
  clearArchived : Bool := false

namespace ReplayPatchInput

/-- The parameters of the statement: `patch.cluster ?? null` and so on. -/
def parameters (patch : ReplayPatchInput) : ReplayPatch where
  status := patch.status
  cluster := patch.cluster.orNull
  replaySalt := patch.replaySalt.orNull
  replayState := patch.replayState.orNull
  sourceUrl := patch.sourceUrl.orNull
  s3Bucket := patch.s3Bucket.orNull
  s3Key := patch.s3Key.orNull
  bytes := patch.bytes.orNull
  error := patch.error.orNull
  steamAccountId := patch.steamAccountId.orNull
  proxyId := patch.proxyId.orNull
  storedAt := patch.storedAt.orNull
  parserVersion := patch.parserVersion.orNull
  parsedAt := patch.parsedAt.orNull
  nextAttemptAt := patch.nextAttemptAt.orNull
  bumpAttempt := patch.bumpAttempt
  clearArchived := patch.clearArchived

/-- The row before and after a patch is written, as the patch says: a field that is given is what
the column becomes, and no other column changes, but for the time of an update, the time of a new
error, the attempts that are counted and the mark of an archive that is cleared. -/
structure Follows (patch : ReplayPatchInput) (before after : ReplayRow) : Prop where
  status : after.status = patch.status.getD before.status
  priority : after.priority = before.priority
  cluster : after.cluster = patch.cluster.apply before.cluster
  replaySalt : after.replaySalt = patch.replaySalt.apply before.replaySalt
  replayState : after.replayState = patch.replayState.apply before.replayState
  sourceUrl : after.sourceUrl = patch.sourceUrl.apply before.sourceUrl
  s3Bucket : after.s3Bucket = patch.s3Bucket.apply before.s3Bucket
  s3Key : after.s3Key = patch.s3Key.apply before.s3Key
  bytes : after.bytes = patch.bytes.apply before.bytes
  lastError : after.lastError = patch.error.apply before.lastError
  steamAccountId : after.steamAccountId = patch.steamAccountId.apply before.steamAccountId
  proxyId : after.proxyId = patch.proxyId.apply before.proxyId
  storedAt : after.storedAt = patch.storedAt.apply before.storedAt
  parserVersion : after.parserVersion = patch.parserVersion.apply before.parserVersion
  parsedAt : after.parsedAt = patch.parsedAt.apply before.parsedAt
  nextAttemptAt : after.nextAttemptAt = patch.nextAttemptAt.apply before.nextAttemptAt
  lastErrorAt : (∀ error, patch.error ≠ .value error) → after.lastErrorAt = before.lastErrorAt
  attempts : patch.bumpAttempt = false → after.attempts = before.attempts
  archivedAt : patch.clearArchived = false → after.archivedAt = before.archivedAt

/-- A field is given as null only where the column is null already. -/
structure ClearsNothing (patch : ReplayPatchInput) (row : ReplayRow) : Prop where
  cluster : patch.cluster = .null → row.cluster = none
  replaySalt : patch.replaySalt = .null → row.replaySalt = none
  replayState : patch.replayState = .null → row.replayState = none
  sourceUrl : patch.sourceUrl = .null → row.sourceUrl = none
  s3Bucket : patch.s3Bucket = .null → row.s3Bucket = none
  s3Key : patch.s3Key = .null → row.s3Key = none
  bytes : patch.bytes = .null → row.bytes = none
  error : patch.error = .null → row.lastError = none
  steamAccountId : patch.steamAccountId = .null → row.steamAccountId = none
  proxyId : patch.proxyId = .null → row.proxyId = none
  storedAt : patch.storedAt = .null → row.storedAt = none
  parserVersion : patch.parserVersion = .null → row.parserVersion = none
  parsedAt : patch.parsedAt = .null → row.parsedAt = none
  nextAttemptAt : patch.nextAttemptAt = .null → row.nextAttemptAt = none

/-- A written row follows the patch exactly when there is nothing that the patch clears. -/
theorem follows_set_iff (now : Time) (patch : ReplayPatchInput) (row : ReplayRow) :
    patch.Follows row (patch.parameters.set now row) ↔ patch.ClearsNothing row := by
  constructor
  · intro follows
    exact
      { cluster := PatchField.coalesce_eq_apply_iff.mp follows.cluster
        replaySalt := PatchField.coalesce_eq_apply_iff.mp follows.replaySalt
        replayState := PatchField.coalesce_eq_apply_iff.mp follows.replayState
        sourceUrl := PatchField.coalesce_eq_apply_iff.mp follows.sourceUrl
        s3Bucket := PatchField.coalesce_eq_apply_iff.mp follows.s3Bucket
        s3Key := PatchField.coalesce_eq_apply_iff.mp follows.s3Key
        bytes := PatchField.coalesce_eq_apply_iff.mp follows.bytes
        error := PatchField.coalesce_eq_apply_iff.mp follows.lastError
        steamAccountId := PatchField.coalesce_eq_apply_iff.mp follows.steamAccountId
        proxyId := PatchField.coalesce_eq_apply_iff.mp follows.proxyId
        storedAt := PatchField.coalesce_eq_apply_iff.mp follows.storedAt
        parserVersion := PatchField.coalesce_eq_apply_iff.mp follows.parserVersion
        parsedAt := PatchField.coalesce_eq_apply_iff.mp follows.parsedAt
        nextAttemptAt := PatchField.coalesce_eq_apply_iff.mp follows.nextAttemptAt }
  · intro clears
    exact
      { status := rfl
        priority := rfl
        cluster := PatchField.coalesce_eq_apply_iff.mpr clears.cluster
        replaySalt := PatchField.coalesce_eq_apply_iff.mpr clears.replaySalt
        replayState := PatchField.coalesce_eq_apply_iff.mpr clears.replayState
        sourceUrl := PatchField.coalesce_eq_apply_iff.mpr clears.sourceUrl
        s3Bucket := PatchField.coalesce_eq_apply_iff.mpr clears.s3Bucket
        s3Key := PatchField.coalesce_eq_apply_iff.mpr clears.s3Key
        bytes := PatchField.coalesce_eq_apply_iff.mpr clears.bytes
        lastError := PatchField.coalesce_eq_apply_iff.mpr clears.error
        steamAccountId := PatchField.coalesce_eq_apply_iff.mpr clears.steamAccountId
        proxyId := PatchField.coalesce_eq_apply_iff.mpr clears.proxyId
        storedAt := PatchField.coalesce_eq_apply_iff.mpr clears.storedAt
        parserVersion := PatchField.coalesce_eq_apply_iff.mpr clears.parserVersion
        parsedAt := PatchField.coalesce_eq_apply_iff.mpr clears.parsedAt
        nextAttemptAt := PatchField.coalesce_eq_apply_iff.mpr clears.nextAttemptAt
        lastErrorAt := fun quiet => if_pos (PatchField.orNull_eq_none_iff.mpr quiet)
        attempts := fun uncounted => by simp [ReplayPatch.set, parameters, uncounted]
        archivedAt := fun kept => by simp [ReplayPatch.set, parameters, kept] }

end ReplayPatchInput

/-- `updateReplay` follows a patch of a stored row exactly when the patch clears nothing, and it
changes no other row. -/
theorem updateReplay_follows_iff (table : Replays) (now : Time) (matchId : MatchId)
    (patch : ReplayPatchInput) (row : ReplayRow) (stored : table matchId = some row) :
    ((∃ after ∈ updateReplay table now matchId patch.parameters matchId,
        patch.Follows row after) ↔ patch.ClearsNothing row) ∧
      ∀ other, other ≠ matchId →
        updateReplay table now matchId patch.parameters other = table other := by
  unfold updateReplay
  constructor
  · rw [Table.update_self, stored, ← patch.follows_set_iff now row]
    simp
  · intro other ne
    exact Table.update_of_ne ne _ _

/-- A parsed and archived replay which is downloaded again: every locator of the row is there
already, it has no error to clear, and the patch replaces the object. -/
theorem updateReplay_follows_download :
    let row : ReplayRow :=
      { status := .parsed, priority := .live, cluster := some 236, replaySalt := some 9
        replayState := some 2, sourceUrl := some "http://replay236.valve.net/570/1_9.dem.bz2"
        s3Bucket := some "cold", s3Key := some "cold/replays/1/1_9.dem.bz2"
        bytes := some 4096, attempts := 1, parserVersion := some 3, parsedAt := some 3
        storedAt := some 2, archivedAt := some 4 }
    let table : Replays := fun _ => some row
    let patch : ReplayPatchInput :=
      { status := some .stored, s3Bucket := .value "hot", s3Key := .value "replays/1/1_9.dem.bz2"
        bytes := .value 8192, error := .null, storedAt := .value 5, clearArchived := true }
    ∃ after ∈ updateReplay table 5 1 patch.parameters 1,
      patch.Follows row after ∧ after.s3Bucket = some "hot" ∧ after.archivedAt = none := by
  intro row table patch
  have clears : patch.ClearsNothing row := by
    constructor
    case error => exact fun _ => rfl
    all_goals
      intro given
      cases given
  obtain ⟨after, written, follows⟩ :=
    (updateReplay_follows_iff table 5 1 patch row rfl).1.mpr clears
  have same : after = patch.parameters.set 5 row := (Option.some.inj written).symm
  exact ⟨after, written, follows, follows.s3Bucket, by rw [same]; rfl⟩

/-- A replay which is stored after an error keeps the error. -/
theorem stored_replay_keeps_error :
    let row : ReplayRow :=
      { status := .pending, lastError := some "replay not yet published", attempts := 1 }
    let patch : ReplayPatchInput :=
      { status := some .stored, error := .null, clearArchived := true }
    (patch.parameters.set 0 row).lastError = some "replay not yet published" ∧
      ¬ patch.Follows row (patch.parameters.set 0 row) := by
  refine ⟨rfl, fun follows => ?_⟩
  cases follows.lastError

end DotaCollector
