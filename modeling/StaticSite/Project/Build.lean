import StaticSite.Project

/-!
# Building a project

A build compiles every page under `templates`, stamps it and publishes all of them together: the new
`live` directory is made aside and takes the place of the old one in one move.  Until the old one is
removed, nothing has changed on the disk, whatever the system refuses.
-/

namespace StaticSite

/-- What a build published. -/
structure BuildReport where
  /-- The paths of the pages, counted from the directory of published pages. -/
  files : List Path
  deriving DecidableEq, Repr

/-- What the system refuses while a project is built. -/
structure BuildTrouble where
  /-- What it refuses while the build lock is taken. -/
  lock : LockTrouble := {}
  /-- Directories that cannot be listed, counted from `templates`. -/
  listing : Path → Option Fault := fun _ => none
  /-- Pages that cannot be read, counted from there as well. -/
  reading : Path → Option Fault := fun _ => none
  /-- Files and directories that cannot be made, counted from the directory that is made aside. -/
  making : Path → Option Fault := fun _ => none
  /-- What cannot be removed of the old pages. -/
  removal : Option Disk.Obstacle := none

namespace Project

/-- Directories that pages may not use. -/
def reservedDirectories : List Text := ["admin".toList, "static".toList]

/-- Pages that belong to the admin interface. -/
def reservedFiles : List Text := ["login.html".toList, "admin.html".toList]

/-- Refuses pages in the place of the admin interface. -/
def checkReserved (disk : Disk) (templates : Path) : Except SiteError Unit :=
  match reservedDirectories.find? fun name => disk.isDirectory (templates ++ [name]) with
  | some name => .error (.reservedPath (templates ++ [name]))
  | none =>
      match reservedFiles.find? fun name =>
        disk.exists? (templates ++ [name]) && !disk.isDirectory (templates ++ [name]) with
      | some name => .error (.reservedPath (templates ++ [name]))
      | none => .ok ()

/-- What a walk comes upon, and where it ends before its time. -/
structure Walk where
  entries : List (Path × Entry)
  /-- The directory that cannot be listed. -/
  stop : Option (Path × Fault)
  deriving DecidableEq, Repr

/-- Refuses directories that cannot be listed.  They are opened by their whole path text. -/
def checkListing (directory : Path) (listing : Path → Option Fault) (path : Path) :
    Except Fault Unit := do
  Fault.check (listing path)
  Disk.checkPathText (directory ++ path).text

/-- Walks on over entries below a directory, up to a directory that cannot be listed. -/
def walkOn (directory : Path) (listing : Path → Option Fault) : List (Path × Entry) → Walk
  | [] => ⟨[], none⟩
  | (path, entry) :: rest =>
      match if entry = .directory then checkListing directory listing path else .ok () with
      | .error fault => ⟨[(path, entry)], some (path, fault)⟩
      | .ok () =>
          let walked := walkOn directory listing rest
          ⟨(path, entry) :: walked.entries, walked.stop⟩

/-- Walks over everything below a directory, in path order and with links kept closed.  The
directory itself may be a link; below a path that is no directory there is nothing. -/
def walk (disk : Disk) (directory : Path) (listing : Path → Option Fault := fun _ => none) :
    Except Fault Walk := do
  match ← disk.find directory with
  | .directory =>
      Fault.check (listing [])
      .ok (walkOn directory listing (disk.below (← disk.resolve directory)))
  | _ => .ok ⟨[], none⟩

/-- Whether a path is that of a page: its last name ends in `.html` behind something. -/
def isPage (path : Path) : Bool :=
  match path.fileName? with
  | some name => ".html".toList.isSuffixOf name && 5 < name.length
  | none => false

/-- The pages among the entries of a walk. -/
def pages (entries : List (Path × Entry)) : List Path :=
  entries.filterMap fun (path, entry) =>
    if entry ≠ .directory ∧ isPage path then some path else none

/-- The name by which a page is known in markers and stamps. -/
def pageName (page : Path) : Text :=
  PathText.join (templatesName :: page)

/-- The stamped HTML of a page. -/
def compilePage (compiler : Compiler) (stamps : PageStamps) (templates page : Path) :
    Except SiteError Text := do
  let file := templates ++ page
  let source ← (compiler.disk.readSource file).mapError (.templateRead file)
  let html ← (compiler.compileSource (pageName page) source).mapError (.compileFailed file)
  .ok (stamps.apply (pageName page) html)

/-- The HTML of all pages, in path order.  Pages are compiled as the walk comes upon them. -/
def compilePages (disk : Disk) (project : Project) (options : BuildOptions)
    (trouble : BuildTrouble := {}) : Except SiteError (List (Path × Text)) := do
  let compiler ← (Compiler.forProject disk project.root options.maxDepth).mapError .compiler
  let walked ← (walk disk project.templates trouble.listing).mapError (.fileWalk project.templates)
  let compiled ← (pages walked.entries).mapM fun page => do
    (Fault.check (trouble.reading page)).mapError (.templateRead (project.templates ++ page))
    .ok (page, ← compilePage compiler options.stamps project.templates page)
  match walked.stop with
  | some (path, fault) => .error (.fileWalk (project.templates ++ path) fault)
  | none => .ok compiled

/-- The directory that is made aside for new pages.  Its name is up to the system, but all of them
are of one length.  It is taken to be removed again however the build ends. -/
def aside (project : Project) : Path := project.root ++ [Disk.temporaryName 0]

/-- Refuses what cannot be made in the directory aside. -/
def checkMaking (project : Project) (making : Path → Option Fault) (path : Path) :
    Except Fault Unit := do
  Fault.check (making path)
  Disk.checkPathText (project.aside ++ path).text

/-- A tree of pages with another page, whose directories are made. -/
def putPage (tree : Disk) (page : Path × Text) : Disk :=
  let rooms := page.1.parent.ancestors.filter (· ≠ [])
  (rooms.foldr (fun room tree => tree.put room .directory) tree).put page.1
    (.file (Utf8.encode page.2))

/-- The tree that holds exactly the given pages. -/
def pageTree (pages : List (Path × Text)) : Disk :=
  pages.foldl putPage Disk.empty

/-- Makes a page in the directory aside.  The names come from a walk, so it is the text of the whole
path that can be too long. -/
def stagePage (project : Project) (making : Path → Option Fault) (tree : Disk)
    (page : Path × Text) : Except SiteError Disk := do
  let room := liveName :: page.1.parent
  let file := liveName :: page.1
  (checkMaking project making room).mapError (.buildWrite (project.aside ++ room))
  (checkMaking project making file).mapError (.buildWrite (project.aside ++ file))
  .ok (putPage tree page)

/-- Makes the new pages in the directory aside. -/
def stage (project : Project) (making : Path → Option Fault) (pages : List (Path × Text)) :
    Except SiteError Disk := do
  (checkMaking project making []).mapError .io
  (checkMaking project making [liveName]).mapError .io
  pages.foldlM (stagePage project making) Disk.empty

/-- All that is done before the old pages are touched: the pages with their HTML, and the tree that
is made of them. -/
def prepare (disk : Disk) (project : Project) (options : BuildOptions) (trouble : BuildTrouble) :
    Except SiteError (List (Path × Text) × Disk) := do
  checkReserved disk project.templates
  let compiled ← compilePages disk project options trouble
  .ok (compiled, ← stage project trouble.making compiled)

/-- Puts a tree of pages in the place of the published ones. -/
def publish (disk : Disk) (live : Path) (staged : Disk) (obstacle : Option Disk.Obstacle := none) :
    Except SiteError Unit × Disk :=
  match if disk.exists? live then disk.removeTree live .plain obstacle else (.ok (), disk) with
  | (.error fault, disk) => (.error (.buildWrite live fault), disk)
  | (.ok (), disk) =>
      match disk.moveTreeTo live staged with
      | .error fault => (.error (.buildWrite live fault), disk)
      | .ok disk => (.ok (), disk)

/-- Builds a project with given options. -/
def buildWith (disk : Disk) (project : Project) (options : BuildOptions)
    (trouble : BuildTrouble := {}) : Except SiteError BuildReport × Disk :=
  match prepare disk project options trouble with
  | .error error => (.error error, disk)
  | .ok (compiled, staged) =>
      match publish disk project.live staged trouble.removal with
      | (.error error, disk) => (.error error, disk)
      | (.ok (), disk) => (.ok { files := compiled.map (·.1) }, disk)

/-- Builds a project with its configured options. -/
def build (disk : Disk) (project : Project) (trouble : BuildTrouble := {}) :
    Except SiteError BuildReport × Disk :=
  match project.config disk with
  | .error error => (.error error, disk)
  | .ok config => buildWith disk project config.build trouble

/-- Builds a project on a host. -/
def buildOn (host : Host) (project : Project) (trouble : BuildTrouble := {}) :
    Except SiteError BuildReport × Host :=
  host.afterReplacing project.live (build host.disk project trouble)

/-- Builds a project while holding its build lock. -/
def buildLocked (host : Host) (project : Project) (trouble : BuildTrouble := {}) :
    Except SiteError BuildReport × Host :=
  match host.withLock project.buildLock .exclusive "site build".toList
      (buildOn · project trouble) trouble.lock with
  | (.error error, host) => (.error (.lock error), host)
  | (.ok result, host) => (result, host)

end Project

end StaticSite
