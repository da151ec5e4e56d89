import StaticSite.BuildState.Store
import StaticSite.CommandLine.Console
import StaticSite.CommandLine.Request
import StaticSite.Project.Build
import StaticSite.Project.Create
import StaticSite.Project.Edit

/-!
# Running command lines

A command line changes a host and gives an exit code with what is printed.  What the system refuses
meanwhile is given beforehand, like the clocks.
-/

namespace StaticSite.CommandLine

/-- What clocks show while a build runs. -/
structure Clock where
  startedAt : Instant
  finishedAt : Instant
  elapsedMs : UInt64

/-- What a command line is run with. -/
structure Surroundings where
  /-- The canonical path of the current directory. -/
  directory : Path
  /-- The project path that stands in for a missing one. -/
  presetPath : Option Text
  clock : Clock
  /-- The room for what is printed, and for the errors. -/
  output : Disk.Room := none
  errors : Disk.Room := none
  creating : Project.CreateTrouble := {}
  building : BuildTrouble := {}
  storing : BuildState.StoreTrouble := {}
  editing : Disk.WriteTrouble := {}
  /-- Whether the name of a published page is no Unicode text.  Such a name is printed with other
  characters in it, and JSON cannot hold it. -/
  foreign : Path → Bool := fun _ => false

/-- The streams before anything is printed. -/
def Surroundings.console (surroundings : Surroundings) : Console where
  output := { room := surroundings.output }
  errors := { room := surroundings.errors }

/-- The sign in front of a notice. -/
def notice : Text := "→ ".toList

/-- The sign in front of a success. -/
def done : Text := "✓ ".toList

/-- The sign in front of a failure. -/
def failed : Text := "✗ ".toList

/-- Text that is printed only by request. -/
def onlyIf (condition : Bool) (text : Text) : Text :=
  if condition then text else []

/-- The project that a command works on and its configuration. -/
def context (disk : Disk) (surroundings : Surroundings) (path : Option Text) :
    Except SiteError (Project × Config) := do
  let project ← match path with
    | some path => Project.discoverText disk surroundings.directory path
    | none => Project.discover disk surroundings.directory
  .ok (project, ← project.config disk)

/-- The parts of a new project, in words. -/
def siteLayout : Text :=
  line "\n→ Site structure:".toList
    ++ line "  - sitecraft.toml (site configuration)".toList
    ++ Scaffold.directories.flatMap fun room => line ("  - ".toList ++ room ++ ['/'])

/-- Makes a new project in the current directory. -/
def runCreate (host : Host) (surroundings : Surroundings) (verbose : Bool) (name : Text)
    (force : Bool) : Outcome × Host :=
  let opening := onlyIf verbose (line (notice ++ "Creating site '".toList ++ name ++ "' in ".toList
    ++ surroundings.directory.text))
  match surroundings.console.say opening with
  | .error outcome => (outcome, host)
  | .ok console =>
      match PathText.checkName name with
      | .error fault => (console.fail [] fault.message, host)
      | .ok () =>
          match Project.createOn host surroundings.directory name force surroundings.creating with
          | (.error error, host) => (console.fail [] error.message, host)
          | (.ok written, host) =>
              (.finish (console.say
                (line (done ++ "Created site '".toList ++ name ++ "' at ".toList ++ written)
                  ++ onlyIf verbose siteLayout
                  ++ line "\n→ Next steps:".toList
                  ++ line ("  1. cd ".toList ++ name)
                  ++ line "  2. sitecraft build".toList)), host)

/-- How a build went, as it is recorded. -/
def buildRecord (clock : Clock) (result : Except SiteError BuildReport) : BuildRecord where
  success := result.isOk
  startedAt := clock.startedAt
  finishedAt := clock.finishedAt
  durationMs := clock.elapsedMs
  files := match result with
    | .ok report => UInt64.ofNat report.files.length
    | .error _ => 0
  error := match result with
    | .ok _ => none
    | .error error => some error.message

/-- The report of a build in JSON. -/
def reportJson (clock : Clock) (project : Project) (report : BuildReport) : Json.Value :=
  .object
    [("duration_ms".toList, .ofNat clock.elapsedMs.toNat),
     ("files".toList, .array (report.files.map fun file => .ofText (PathText.join file))),
     ("root".toList, .ofText project.root.text),
     ("success".toList, .boolean true)]

/-- What is printed before a build. -/
def buildOpening (project : Project) (config : Config) (verbose json : Bool) : Text :=
  onlyIf (verbose && !json) (line (notice ++ "Building '".toList ++ project.nameWith config
    ++ "' in ".toList ++ project.root.text))

/-- The published pages, in words. -/
def pageList (report : BuildReport) : Text :=
  report.files.flatMap fun file => line ("  - live/".toList ++ PathText.join file)

/-- What is printed of a failed build before the error. -/
def failureHeading (json : Bool) : Text :=
  onlyIf (!json) (line (failed ++ "Build failed".toList))

/-- What is printed last of a build. -/
def buildSummary (clock : Clock) (project : Project) (report : BuildReport) : Text :=
  line (done ++ "Built ".toList ++ Text.ofNat report.files.length ++ " page(s) into ".toList
    ++ project.live.text ++ " (".toList ++ Text.ofNat clock.elapsedMs.toNat ++ "ms)".toList)

/-- Tells how a build went. -/
def tellBuild (console : Console) (surroundings : Surroundings) (project : Project)
    (verbose json : Bool) : Except SiteError BuildReport → Outcome
  | .error error => console.fail (failureHeading json) error.message
  | .ok report =>
      if json then
        if report.files.any surroundings.foreign then console.breakOff
        else .finish (console.tell
          (line (Json.write (reportJson surroundings.clock project report))))
      else .finish do
        let console ← console.say (onlyIf verbose (pageList report))
        console.tell (buildSummary surroundings.clock project report)

/-- Builds a project and records how it went.  Failing to record changes nothing else. -/
def runBuild (host : Host) (surroundings : Surroundings) (verbose : Bool) (path : Option Text)
    (json : Bool) : Outcome × Host :=
  match context host.disk surroundings path with
  | .error error => (surroundings.console.fail [] error.message, host)
  | .ok (project, config) =>
      match surroundings.console.say (buildOpening project config verbose json) with
      | .error outcome => (outcome, host)
      | .ok console =>
          let (result, host) := Project.buildLocked host project surroundings.building
          let (_, host) := BuildState.recordBuild host project
            (buildRecord surroundings.clock result) surroundings.storing
          (tellBuild console surroundings project verbose json result, host)

/-- The recorded state in JSON, with the site it belongs to. -/
def statusJson (project : Project) (config : Config) (state : BuildState) : Json.Value :=
  .object
    [("schema_version".toList, .ofText state.schemaVersion),
     ("site".toList, .ofText (project.nameWith config)),
     ("root".toList, .ofText project.root.text),
     ("built".toList, .boolean state.build.isSome),
     ("build".toList, (state.build.map BuildRecord.toJson).getD .null)]

/-- The recorded state in words. -/
def statusText (state : BuildState) : Text :=
  match state.build with
  | none => line (notice ++ "No builds recorded yet (run `sitecraft build`)".toList)
  | some record =>
      if record.success then
        line (done ++ "Last build succeeded at ".toList ++ record.finishedAt.writeWithOffset
          ++ " (".toList ++ Text.ofNat record.files.toNat ++ " page(s), ".toList
          ++ Text.ofNat record.durationMs.toNat ++ "ms)".toList)
      else
        line (failed ++ "Last build failed at ".toList ++ record.finishedAt.writeWithOffset)
          ++ match record.error with
            | some error => line ("  - ".toList ++ error)
            | none => []

/-- Tells how the last build went. -/
def runStatus (host : Host) (surroundings : Surroundings) (verbose : Bool) (path : Option Text)
    (json : Bool) : Outcome × Host :=
  match context host.disk surroundings path with
  | .error error => (surroundings.console.fail [] error.message, host)
  | .ok (project, config) =>
      let (state, host) := BuildState.loadOrEmpty host project.stateFile surroundings.storing
      if json then
        (.finish (surroundings.console.tell (line (Json.write (statusJson project config state)))),
          host)
      else
        let heading := line (notice ++ "Site: ".toList ++ project.nameWith config)
          ++ onlyIf verbose (line ("  root: ".toList ++ project.root.text))
        (.finish (do (← surroundings.console.say heading).tell (statusText state)), host)

/-- Edits a source of a project, and tells so in words that go on with `subject`. -/
def runEdit (host : Host) (surroundings : Surroundings) (verbose : Bool) (path : Option Text)
    (starting finished subject : Text) (edit : Project → Except SiteError Unit × Disk) :
    Outcome × Host :=
  match context host.disk surroundings path with
  | .error error => (surroundings.console.fail [] error.message, host)
  | .ok (project, _) =>
      match surroundings.console.say (onlyIf verbose (line (notice ++ starting ++ subject))) with
      | .error outcome => (outcome, host)
      | .ok console =>
          match edit project with
          | (.error error, disk) => (console.fail [] error.message, host.withDisk disk)
          | (.ok (), disk) =>
              (.finish (console.say (line (done ++ finished ++ subject))), host.withDisk disk)

/-- Runs a request. -/
def runRequest (host : Host) (surroundings : Surroundings) (request : Request) : Outcome × Host :=
  match request.command with
  | .create name force => runCreate host surroundings request.verbose name force
  | .build path json => runBuild host surroundings request.verbose path json
  | .status path json => runStatus host surroundings request.verbose path json
  | .deleteInclude file index path =>
      runEdit host surroundings request.verbose path "Removing include #".toList
        "Removed include #".toList (Text.ofNat index ++ " from ".toList ++ file)
        fun project => Project.deleteInclude host.disk project file index surroundings.editing
  | .insertInclude file page path =>
      runEdit host surroundings request.verbose path "Inserting ".toList "Inserted ".toList
        (page ++ " into ".toList ++ file)
        fun project => Project.insertInclude host.disk project file page surroundings.editing

/-- How the tool is used. -/
def usage : Text :=
  "Usage: sitecraft [-v] <new|build|status|block> [ARGUMENTS]\n".toList

/-- Runs a command line. -/
def run (host : Host) (surroundings : Surroundings) (arguments : List Text) : Outcome × Host :=
  match read surroundings.presetPath arguments with
  | .ok request => runRequest host surroundings request
  | .error .help => (surroundings.console.offer usage, host)
  | .error .version => (surroundings.console.offer (line "sitecraft 0.1.0".toList), host)
  | .error .usage => (surroundings.console.refuse usage, host)

end StaticSite.CommandLine
