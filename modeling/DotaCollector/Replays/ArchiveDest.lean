import Mathlib.Data.List.DropRight

/-!
# Where replays are archived

Buckets and keys are texts. The environment names a bucket either plainly or as a `gs://` location,
and the archive is a bucket with a folder in it.
-/

namespace DotaCollector
namespace Archive

/-! ## Texts -/

/-- What `trim` takes for white space. -/
def isSpace (char : Char) : Bool :=
  char.val ∈
      [9, 10, 11, 12, 13, 32, 0xA0, 0x1680, 0x2028, 0x2029, 0x202F, 0x205F, 0x3000, 0xFEFF] ||
    (0x2000 ≤ char.val && char.val ≤ 0x200A)

def dropStart (drops : Char → Bool) (text : String) : String :=
  String.ofList (text.toList.dropWhile drops)

def dropEnd (drops : Char → Bool) (text : String) : String :=
  String.ofList (text.toList.rdropWhile drops)

@[irreducible] def trim (text : String) : String := dropEnd isSpace (dropStart isSpace text)

/-- Without slashes at its ends. -/
def stripSlashes (text : String) : String := dropEnd (· = '/') (dropStart (· = '/') text)

/-- The text without a beginning, if it has it. -/
def dropPrefix? (beginning text : String) : Option String :=
  if beginning.toList <+: text.toList then
    some (String.ofList (text.toList.drop beginning.toList.length))
  else none

/-! ## Locations -/

inductive StoreKind where
  | gcs
  | s3
  deriving DecidableEq, Repr

structure ObjectLocation where
  kind : StoreKind
  bucket : String
  deriving DecidableEq, Repr

/-- `gs://bucket/` is GCS (instance ADC). Anything else is the S3 API. -/
@[irreducible] def parseObjectLocation (raw : String) : ObjectLocation :=
  let trimmed := trim raw
  match dropPrefix? "gs://" trimmed with
  | some rest =>
      { kind := .gcs
        bucket := String.ofList ((stripSlashes rest).toList.takeWhile (· ≠ '/')) }
  | none => { kind := .s3, bucket := dropEnd (· = '/') trimmed }

@[irreducible] def normalizeObjectPrefix (raw : String) : String := stripSlashes (trim raw)

@[irreducible] def joinObjectPrefix (folder key : String) : String :=
  let folder := normalizeObjectPrefix folder
  let key := dropStart (· = '/') key
  if folder = "" then key
  else if key = folder ∨ (folder ++ "/").toList <+: key.toList then key
  else folder ++ "/" ++ key

def sameObjectBucket (left right : String) : Bool :=
  (parseObjectLocation left).bucket ≠ "" &&
    (parseObjectLocation left).bucket = (parseObjectLocation right).bucket

/-! ## The destination -/

/-- The connection settings of the environment. -/
structure Environment where
  hotBucket : String
  archiveBucket : String := ""
  archivePrefix : String := "cold/"
  storageClass : String := ""

structure ArchiveDestination where
  bucketRaw : String
  bucket : String
  kind : StoreKind
  folder : String
  storageClass : String
  deriving DecidableEq, Repr

/-- Why a destination is refused. -/
def refusal (hot : ObjectLocation) (dest : ArchiveDestination) : Option String :=
  if dest.bucket = "" then some "archive bucket is empty"
  else if hot.kind ≠ dest.kind then some "S3_ARCHIVE_BUCKET must be the same kind as S3_BUCKET"
  else if dest.bucket = hot.bucket ∧ dest.folder = "" then
    some "same-bucket archive needs S3_ARCHIVE_PREFIX (or a different bucket)"
  else none

/-- The destination which the environment names. -/
def archiveDestination (env : Environment) : ArchiveDestination :=
  let archiveRaw := if trim env.archiveBucket = "" then env.hotBucket else env.archiveBucket
  let location := parseObjectLocation archiveRaw
  { bucketRaw := archiveRaw
    bucket := location.bucket
    kind := location.kind
    folder := normalizeObjectPrefix env.archivePrefix
    storageClass := trim env.storageClass }

/-- The destination, and why it is not one. -/
def resolveArchiveDestination (env : Environment) : ArchiveDestination × Option String :=
  (archiveDestination env, refusal (parseObjectLocation env.hotBucket) (archiveDestination env))

theorem bucket_ne_of_accepted {env : Environment}
    (accepted : (resolveArchiveDestination env).2 = none) :
    (archiveDestination env).bucket ≠ "" := by
  intro empty
  simp [resolveArchiveDestination, refusal, empty] at accepted

end Archive
end DotaCollector
