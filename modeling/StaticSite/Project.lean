import StaticSite.Config
import StaticSite.Error

/-!
# Projects

A project is a directory with a fixed layout.  This module names its parts, finds the project
that a directory belongs to and reads its configuration.
-/

namespace StaticSite

/-- The directory of a project. -/
structure Project where
  root : Path
  deriving DecidableEq, Repr

namespace Project

/-- The name of the directory of pages. -/
def templatesName : Text := "templates".toList

/-- The name of the directory of published pages. -/
def liveName : Text := "live".toList

/-- The name of the configuration file. -/
def configName : Text := "sitecraft.toml".toList

/-- The name of the directory of records and locks. -/
def stateName : Text := ".sitecraft".toList

/-- The directory of pages. -/
def templates (project : Project) : Path := project.root ++ [templatesName]

/-- The directory of published pages. -/
def live (project : Project) : Path := project.root ++ [liveName]

/-- The configuration file. -/
def configFile (project : Project) : Path := project.root ++ [configName]

/-- The file that records the last build. -/
def stateFile (project : Project) : Path := project.root ++ [stateName, "state.json".toList]

/-- The file that a build locks. -/
def buildLock (project : Project) : Path := project.root ++ [stateName, "build.lock".toList]

/-- Whether a directory is a project: it has pages or a configuration. -/
def isProject (disk : Disk) (directory : Path) : Bool :=
  disk.isDirectory (directory ++ [templatesName]) || disk.isFile (directory ++ [configName])

/-- The nearest project at or above a canonical directory. -/
def above? (disk : Disk) (place : Path) : Option Project :=
  (place.ancestors.find? (isProject disk)).map Project.mk

/-- The nearest project at or above a path, if there is one. -/
def find? (disk : Disk) (start : Path) : Except SiteError (Option Project) :=
  match disk.canonical start with
  | .ok place => .ok (above? disk place)
  | .error fault => .error (.io fault)

/-- The nearest project at or above a path text, seen from the directory `here`. -/
def discoverText (disk : Disk) (here : Path) (start : Text) : Except SiteError Project :=
  match disk.canonicalText here start with
  | .ok place => (above? disk place).elim (.error .projectNotFound) .ok
  | .error fault => .error (.io fault)

/-- The nearest project at or above a path. -/
def discover (disk : Disk) (start : Path) : Except SiteError Project := do
  (← find? disk start).elim (.error .projectNotFound) .ok

/-- The configuration in a file.  The depth limit is at least one. -/
def configOfFile (disk : Disk) (path : Path) : Except SiteError Config := do
  let text ← (disk.readText path).mapError .io
  match Config.read? text with
  | none => .error (.configInvalid path)
  | some config => if config.build.maxDepth = 0 then .error .zeroMaxDepth else .ok config

/-- The configuration of a project, which may do without a file. -/
def config (disk : Disk) (project : Project) : Except SiteError Config :=
  if disk.isFile project.configFile then configOfFile disk project.configFile else .ok {}

/-- The name of a site: the configured one, or else the name of its directory. -/
def nameWith (project : Project) (config : Config) : Text :=
  config.siteName.getD (project.root.fileName?.getD [])

/-- The name of the site of a project. -/
def name (disk : Disk) (project : Project) : Except SiteError Text := do
  .ok (project.nameWith (← project.config disk))

end Project

end StaticSite
