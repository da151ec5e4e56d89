import StaticSite.Instant.Format
import StaticSite.Json.Reader
import StaticSite.Json.Writer

/-!
# The recorded state of a project

A project records how its last build went.  The record is a JSON text; objects may also be
written as arrays of their members in order, and members with unknown names are passed over.
-/

namespace StaticSite

/-- How a build went. -/
structure BuildRecord where
  success : Bool
  startedAt : Instant
  finishedAt : Instant
  durationMs : UInt64
  /-- The number of published pages. -/
  files : UInt64
  error : Option Text
  deriving DecidableEq, Repr

/-- The recorded state of a project. -/
structure BuildState where
  schemaVersion : Text
  build : Option BuildRecord
  deriving DecidableEq, Repr

namespace BuildState

/-- The version of the record's form. -/
def currentSchema : Text := "1.0".toList

/-- The state of a project that has recorded nothing. -/
def empty : BuildState where
  schemaVersion := currentSchema
  build := none

end BuildState

open Json

/-! ## Writing -/

/-- The JSON value of a record. -/
def BuildRecord.toJson (record : BuildRecord) : Value :=
  .object
    [("success".toList, .boolean record.success),
     ("started_at".toList, .ofText record.startedAt.write),
     ("finished_at".toList, .ofText record.finishedAt.write),
     ("duration_ms".toList, .ofNat record.durationMs.toNat),
     ("files".toList, .ofNat record.files.toNat),
     ("error".toList, (record.error.map Value.ofText).getD .null)]

/-- The JSON value of a state. -/
def BuildState.toJson (state : BuildState) : Value :=
  .object
    [("schema_version".toList, .ofText state.schemaVersion),
     ("build".toList, (state.build.map BuildRecord.toJson).getD .null)]

/-- The text in which a state is stored. -/
def BuildState.write (state : BuildState) : Text :=
  Json.write state.toJson

/-! ## Reading -/

/-- The instant of a string. -/
def Json.Value.instant? (value : Value) : Option Instant := do
  Instant.read? (← value.text?)

/-- The record with the given members. -/
def BuildRecord.ofValues? (success startedAt finishedAt durationMs files error : Value) :
    Option BuildRecord := do
  some {
    success := ← success.boolean?
    startedAt := ← startedAt.instant?
    finishedAt := ← finishedAt.instant?
    durationMs := UInt64.ofNat (← durationMs.word?)
    files := UInt64.ofNat (← files.word?)
    error := ← error.optional? Value.text? }

/-- The record of a JSON value.  In an object the error may be missing. -/
def BuildRecord.ofJson? : Value → Option BuildRecord
  | .object members => do
      let fields ← Value.fields? ["success".toList, "started_at".toList, "finished_at".toList,
        "duration_ms".toList, "files".toList, "error".toList] members
      ofValues? (← fields.lookup "success".toList) (← fields.lookup "started_at".toList)
        (← fields.lookup "finished_at".toList) (← fields.lookup "duration_ms".toList)
        (← fields.lookup "files".toList) ((fields.lookup "error".toList).getD .null)
  | .array [success, startedAt, finishedAt, durationMs, files, error] =>
      ofValues? success startedAt finishedAt durationMs files error
  | _ => none

/-- The state of a JSON value.  The build may be missing. -/
def BuildState.ofJson? : Value → Option BuildState
  | .object members => do
      let fields ← Value.fields? ["schema_version".toList, "build".toList] members
      some {
        schemaVersion := ← (← fields.lookup "schema_version".toList).text?
        build := ← ((fields.lookup "build".toList).getD .null).optional? BuildRecord.ofJson? }
  | .array [version] => do some { schemaVersion := ← version.text?, build := none }
  | .array [version, build] => do
      some {
        schemaVersion := ← version.text?
        build := ← build.optional? BuildRecord.ofJson? }
  | _ => none

/-- The state that a text holds. -/
def BuildState.read? (text : Text) : Option BuildState := do
  ofJson? (← Json.read? text)

end StaticSite
