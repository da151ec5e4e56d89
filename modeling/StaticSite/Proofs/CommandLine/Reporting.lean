import Mathlib
import StaticSite.CommandLine.Run
import StaticSite.Proofs.BuildState.Recording
import StaticSite.Proofs.CommandLine.Printing

/-!
# What a command line reports of a build

The exit code of a build says how the build went and whether that could be printed, and not how
recording it went.  A status behind a recorded build tells what the build has told, as long as the
state file can still be reached: where the record took the place of a link, the state file may have
been reached through that very link.
-/

namespace StaticSite

namespace BuildState

variable {host after : Host} {path : Path} {disk : Disk} {project : Project} {record : BuildRecord}
  {trouble : StoreTrouble}

/-- Until it reads, loading only makes the lock file and the directories above it. -/
theorem load_grows (host : Host) (path : Path) (trouble : StoreTrouble) :
    host.disk.Grows (load host path trouble).2.disk (Project.MadeForLock (lockFile path)) := by
  have prepares := prepare_grows host path trouble
  unfold load
  split
  · next prepared =>
    rw [prepared] at prepares
    exact prepares
  · next roomed prepared =>
    rw [prepared] at prepares
    have locks :=
      Project.acquire_grows roomed (lockFile path) .shared "state read".toList trouble.lock
    unfold Host.withLock
    cases acquired : roomed.acquire (lockFile path) .shared "state read".toList trouble.lock with
    | mk outcome ready =>
      rw [acquired] at locks
      cases outcome <;> exact prepares.trans locks

/-- Behind an update its state is loaded exactly if it can still be reached, and then the disk stays
as it is. -/
theorem loadOrEmpty_of_update {next : Disk → BuildState}
    (updated : update host path next = (.ok (), after))
    (current : (next (lockedDisk host path)).schemaVersion = currentSchema) :
    (Reachable after.disk path → ∃ loaded,
      loadOrEmpty after path = (next (lockedDisk host path), loaded) ∧ loaded.disk = after.disk) ∧
    (¬ Reachable after.disk path → (loadOrEmpty after path).1 = empty) := by
  constructor
  · intro reachable
    obtain ⟨accessible, stored⟩ := accessible_of_reachable updated reachable
    obtain ⟨loaded, found, sameDisk, _⟩ :=
      load_of_accessible accessible (readFile_of_stored current stored)
    refine ⟨loaded, ?_, sameDisk⟩
    rw [loadOrEmpty, found]
  · intro unreachable
    unfold loadOrEmpty
    split
    · next found => exact absurd (reachable_of_load_update updated found).2 unreachable
    · rfl

/-- Whatever the system refuses, nothing else than the state of an update is loaded behind it. -/
theorem loadOrEmpty_eq_or_empty {next : Disk → BuildState}
    (updated : update host path next = (.ok (), after)) (later : StoreTrouble) :
    (loadOrEmpty after path later).1 = next (lockedDisk host path) ∨
      (loadOrEmpty after path later).1 = empty := by
  unfold loadOrEmpty
  split
  · next found => exact .inl (reachable_of_load_update updated (load_of_trouble found)).1
  · exact .inr rfl

theorem update_of_recordBuild (stored : recordBuild host project record trouble = (.ok (), after)) :
    update host project.stateFile (fun _ => recorded record) = (.ok (), after) :=
  update_of_trouble (recordBuild_eq host project record trouble ▸ stored)

theorem loadOrEmpty_of_recordBuild
    (stored : recordBuild host project record trouble = (.ok (), after)) :
    (Reachable after.disk project.stateFile → ∃ loaded,
      loadOrEmpty after project.stateFile = (recorded record, loaded) ∧
        loaded.disk = after.disk) ∧
    (¬ Reachable after.disk project.stateFile →
      (loadOrEmpty after project.stateFile).1 = empty) :=
  loadOrEmpty_of_update (update_of_recordBuild stored) rfl

end BuildState

namespace CommandLine

open BuildState

variable {host after built : Host} {surroundings : Surroundings} {arguments : List Text}
  {path : Option Text} {verbose json : Bool} {project : Project} {config : Config}
  {result : Except SiteError BuildReport}

/-! ## What a build comes to -/

/-- The number of published pages. -/
def publishedCount : Except SiteError BuildReport → Nat
  | .ok report => report.files.length
  | .error _ => 0

/-- What a failed build says. -/
def failureMessage? : Except SiteError BuildReport → Option Text
  | .ok _ => none
  | .error error => some error.message

/-- What a status has to tell of a build, in JSON. -/
def statusBehind (project : Project) (config : Config) (clock : Clock)
    (result : Except SiteError BuildReport) : Json.Value :=
  .object
    [("schema_version".toList, .ofText "1.0".toList),
     ("site".toList, .ofText (project.nameWith config)),
     ("root".toList, .ofText project.root.text),
     ("built".toList, .boolean true),
     ("build".toList, .object
      [("success".toList, .boolean result.isOk),
       ("started_at".toList, .ofText clock.startedAt.write),
       ("finished_at".toList, .ofText clock.finishedAt.write),
       ("duration_ms".toList, .ofNat clock.elapsedMs.toNat),
       ("files".toList, .ofNat (publishedCount result)),
       ("error".toList, ((failureMessage? result).map Json.Value.ofText).getD .null)])]

theorem statusJson_recorded (clock : Clock) (countable : publishedCount result < UInt64.size) :
    statusJson project config (recorded (buildRecord clock result))
      = statusBehind project config clock result := by
  cases result with
  | error error => rfl
  | ok report =>
    have count : (UInt64.ofNat report.files.length).toNat = report.files.length :=
      UInt64.toNat_ofNat_of_lt countable
    simp only [statusJson, recorded, buildRecord, BuildRecord.toJson, statusBehind, publishedCount,
      failureMessage?, Option.map_some, Option.getD_some, Option.map_none, Option.getD_none, count,
      Option.isSome_some, currentSchema]

theorem run_build
    (asked : read surroundings.presetPath arguments = .ok ⟨verbose, .build path json⟩) :
    run host surroundings arguments = runBuild host surroundings verbose path json := by
  rw [run, asked]
  rfl

theorem run_status
    (asked : read surroundings.presetPath arguments = .ok ⟨verbose, .status path json⟩) :
    run host surroundings arguments = runStatus host surroundings verbose path json := by
  rw [run, asked]
  rfl

/-- All that is printed of a build that has succeeded. -/
def successText (surroundings : Surroundings) (project : Project) (config : Config)
    (verbose json : Bool) (report : BuildReport) : Text :=
  buildOpening project config verbose json ++
    if json then line (Json.write (reportJson surroundings.clock project report))
    else onlyIf verbose (pageList report) ++ buildSummary surroundings.clock project report

/-- Whether it can be told that a build has succeeded: all of that arrives, and in JSON there are
only names that it can hold. -/
structure CanTell (surroundings : Surroundings) (project : Project) (config : Config)
    (verbose json : Bool) (report : BuildReport) : Prop where
  arrives :
    Arrives surroundings.output (successText surroundings project config verbose json report)
  native : json = true → ∀ file ∈ report.files, surroundings.foreign file = false

/-- The streams behind the opening of a build. -/
def opened (surroundings : Surroundings) (opening : Text) : Console where
  output := .holding surroundings.output opening
  errors := .holding surroundings.errors []

theorem console_eq (surroundings : Surroundings) : surroundings.console = opened surroundings [] :=
  rfl

theorem tellBuild_ok {report : BuildReport}
    (canTell : CanTell surroundings project config verbose json report) :
    tellBuild (opened surroundings (buildOpening project config verbose json)) surroundings project
      verbose json (.ok report)
        = .success (successText surroundings project config verbose json report) := by
  obtain ⟨arrives, native⟩ := canTell
  rw [successText] at arrives ⊢
  cases json with
  | true =>
    have native' : report.files.any surroundings.foreign = false :=
      List.any_eq_false.2 fun file isFile => by rw [native rfl file isFile]; nofun
    rw [if_pos rfl] at arrives ⊢
    rw [tellBuild, if_pos rfl, native', opened, if_neg Bool.false_ne_true,
      Console.tell_of_arrives arrives]
    rfl
  | false =>
    rw [if_neg Bool.false_ne_true, ← List.append_assoc] at arrives
    rw [tellBuild, if_neg Bool.false_ne_true, opened, Console.say_of_arrives arrives.front]
    dsimp only [bind, Except.bind]
    rw [Console.tell_of_arrives arrives, if_neg Bool.false_ne_true, ← List.append_assoc]
    rfl

theorem tellBuild_ok_of_not {report : BuildReport} {outcome : Outcome}
    (cannotTell : ¬ CanTell surroundings project config verbose json report)
    (told : tellBuild (opened surroundings (buildOpening project config verbose json)) surroundings
      project verbose json (.ok report) = outcome) :
    outcome.code = 1 ∨ outcome.code = 101 := by
  subst told
  cases json with
  | true =>
    rw [tellBuild, if_pos rfl]
    split
    · -- A name that JSON cannot hold ends the tool before anything is printed.
      exact .inr rfl
    · next native =>
      have lost : ¬ Arrives surroundings.output (buildOpening project config verbose true
          ++ line (Json.write (reportJson surroundings.clock project report))) := by
        intro arrives
        refine cannotTell ⟨arrives, fun _ file isFile => ?_⟩
        rw [Bool.not_eq_true, List.any_eq_false] at native
        exact Bool.eq_false_iff.2 (native file isFile)
      obtain ⟨outcome, told, code⟩ := Console.tell_of_lost lost
      rw [opened, told]
      exact code
  | false =>
    -- The list of pages is printed apart from the summary, and either can be what is lost.
    rw [tellBuild, if_neg Bool.false_ne_true, opened]
    by_cases listed : Arrives surroundings.output (buildOpening project config verbose false
        ++ onlyIf verbose (pageList report))
    · have lost : ¬ Arrives surroundings.output (buildOpening project config verbose false
          ++ onlyIf verbose (pageList report)
          ++ buildSummary surroundings.clock project report) := by
        intro arrives
        refine cannotTell ⟨?_, nofun⟩
        rw [successText, if_neg Bool.false_ne_true, ← List.append_assoc]
        exact arrives
      obtain ⟨outcome, told, code⟩ := Console.tell_of_lost lost
      rw [Console.say_of_arrives listed]
      dsimp only [bind, Except.bind]
      rw [told]
      exact code
    · obtain ⟨outcome, said, code⟩ := Console.say_of_lost listed
      rw [said]
      exact .inr code

/-- Nothing is built where the opening does not arrive. -/
theorem runBuild_of_lost (discovered : context host.disk surroundings path = .ok (project, config))
    (lost : ¬ Arrives surroundings.output (buildOpening project config verbose json)) :
    (runBuild host surroundings verbose path json).1.code = 101 ∧
      (runBuild host surroundings verbose path json).2 = host := by
  have lost' : ¬ Arrives surroundings.output ([] ++ buildOpening project config verbose json) :=
    lost
  obtain ⟨outcome, said, code⟩ := Console.say_of_lost lost'
  rw [runBuild, discovered]
  dsimp only
  rw [console_eq, opened, said]
  exact ⟨code, rfl⟩

/-- What a build tells comes from the build alone, and the host from recording it. -/
theorem runBuild_eq (discovered : context host.disk surroundings path = .ok (project, config))
    (arrives : Arrives surroundings.output (buildOpening project config verbose json))
    (builds : Project.buildLocked host project surroundings.building = (result, built)) :
    runBuild host surroundings verbose path json
      = (tellBuild (opened surroundings (buildOpening project config verbose json)) surroundings
          project verbose json result,
        (recordBuild built project (buildRecord surroundings.clock result)
          surroundings.storing).2) := by
  have arrives' : Arrives surroundings.output ([] ++ buildOpening project config verbose json) :=
    arrives
  have said : surroundings.console.say (buildOpening project config verbose json)
      = .ok (opened surroundings (buildOpening project config verbose json)) :=
    Console.say_of_arrives arrives'
  rw [runBuild, discovered]
  dsimp only
  rw [said]
  dsimp only
  rw [builds]

theorem runStatus_json (discovered : context host.disk surroundings path = .ok (project, config))
    (free : surroundings.output = none) :
    runStatus host surroundings verbose path true
      = (.success (line (Json.write (statusJson project config
          (loadOrEmpty host project.stateFile surroundings.storing).1))),
        (loadOrEmpty host project.stateFile surroundings.storing).2) := by
  have arrives (text : Text) : Arrives surroundings.output ([] ++ text) := free ▸ arrives_none _
  rw [runStatus, discovered]
  dsimp only
  rw [if_pos rfl, console_eq, opened, Console.tell_of_arrives (arrives _)]
  rfl

/-! ## What a status prints -/

theorem wellFormed_statusJson (project : Project) (config : Config) (state : BuildState) :
    Json.WellFormed (statusJson project config state) := by
  refine Json.Value.wellFormed_object
    [("schema_version".toList, .ofText state.schemaVersion),
     ("site".toList, .ofText (project.nameWith config)),
     ("root".toList, .ofText project.root.text),
     ("built".toList, .boolean state.build.isSome),
     ("build".toList, (state.build.map BuildRecord.toJson).getD .null)] fun row isRow => ?_
  simp only [List.mem_cons, List.not_mem_nil, or_false] at isRow
  rcases isRow with rfl | rfl | rfl | rfl | rfl
  · exact Json.wellFormed_ofText _
  · exact Json.wellFormed_ofText _
  · exact Json.wellFormed_ofText _
  · exact .boolean _
  · exact Json.Value.wellFormed_getD BuildRecord.wellFormed_toJson _

/-- What is printed of a build is not what is printed where nothing is recorded. -/
theorem build_isSome_of_printed_eq {state state' : BuildState} {config' : Config}
    (same : line (Json.write (statusJson project config state))
      = line (Json.write (statusJson project config' state'))) :
    state.build.isSome = state'.build.isSome := by
  have texts : Json.write (statusJson project config state)
      = Json.write (statusJson project config' state') := List.append_cancel_right same
  have values := congrArg Json.read? texts
  rw [Json.read?_write (wellFormed_statusJson ..), Json.read?_write (wellFormed_statusJson ..)]
    at values
  simp only [statusJson, Option.some.injEq, Json.Value.object.injEq, List.cons.injEq,
    Prod.mk.injEq, Json.Value.boolean.injEq] at values
  exact values.2.2.2.1.2

theorem loadOrEmpty_snd (host : Host) (path : Path) (trouble : StoreTrouble) :
    (loadOrEmpty host path trouble).2 = (load host path trouble).2 := by
  unfold loadOrEmpty
  split
  · next found => rw [found]
  · next found => rw [found]

/-- Telling how the last build went makes nothing but the lock file and the directories above it. -/
theorem runStatus_grows (discovered : context host.disk surroundings path = .ok (project, config)) :
    host.disk.Grows (runStatus host surroundings verbose path json).2.disk
      (Project.MadeForLock (lockFile project.stateFile)) := by
  have loads := load_grows host project.stateFile surroundings.storing
  rw [← loadOrEmpty_snd] at loads
  rw [runStatus, discovered]
  cases json <;> exact loads

/-- Behind a record a status prints what the build came to, or that there was none. -/
theorem runStatus_of_stored {later : Surroundings}
    (stored : recordBuild host project (buildRecord surroundings.clock result) surroundings.storing
      = (.ok (), after)) (countable : publishedCount result < UInt64.size)
    (free : later.output = none) (discovered : context after.disk later path = .ok (project, config)) :
    ((runStatus after later verbose path true).1 = .success (line (Json.write
          (statusBehind project config surroundings.clock result))) ∨
        (runStatus after later verbose path true).1 = .success (line (Json.write
          (statusJson project config empty)))) ∧
      (later.storing = {} →
        ((runStatus after later verbose path true).1 = .success (line (Json.write
            (statusBehind project config surroundings.clock result))) ↔
          Reachable after.disk project.stateFile) ∧
        (Reachable after.disk project.stateFile →
          (runStatus after later verbose path true).2.disk = after.disk)) := by
  obtain ⟨loads, loadsNothing⟩ := loadOrEmpty_of_recordBuild stored
  rw [runStatus_json discovered free, ← statusJson_recorded surroundings.clock countable]
  refine ⟨?_, fun untroubled => ?_⟩
  · rcases loadOrEmpty_eq_or_empty (update_of_recordBuild stored) later.storing with
      found | found <;> rw [found]
    · exact .inl rfl
    · exact .inr rfl
  · rw [untroubled]
    refine ⟨⟨fun printed => ?_, fun reachable => ?_⟩, fun reachable => ?_⟩
    · -- Out of reach the state says nothing of a build, which is not what was printed.
      by_contra unreachable
      have same := build_isSome_of_printed_eq (Utf8.encode_injective (Outcome.mk.inj printed).2.1)
      rw [loadsNothing unreachable] at same
      cases same
    · obtain ⟨loaded, found, _⟩ := loads reachable
      rw [found]
    · obtain ⟨loaded, found, sameDisk⟩ := loads reachable
      rw [found]
      exact sameDisk

/-- A build of which nothing can be printed at first does not take place.  Otherwise the exit code
is zero exactly if the build succeeded and all of its report arrives, whatever becomes of its
record; and a failed build says why.  If the record is stored, a status on the same project prints
what the build came to and changes nothing, exactly as long as the state file can be reached; which
it can, unless the record has replaced a link to a directory.  Where the state file is refused to
it, a status tells of no build.  No status makes more than the lock file of the state and the
directories above it. -/
theorem build_is_reported {outcome : Outcome}
    (asked : read surroundings.presetPath arguments = .ok ⟨verbose, .build path json⟩)
    (discovered : context host.disk surroundings path = .ok (project, config))
    (builds : Project.buildLocked host project surroundings.building = (result, built))
    (ran : run host surroundings arguments = (outcome, after)) :
    (¬ Arrives surroundings.output (buildOpening project config verbose json) →
      outcome.code = 101 ∧ after = host) ∧
    (Arrives surroundings.output (buildOpening project config verbose json) →
      (∀ report, result = .ok report →
        (CanTell surroundings project config verbose json report →
          outcome = .success (successText surroundings project config verbose json report)) ∧
        (¬ CanTell surroundings project config verbose json report →
          outcome.code = 1 ∨ outcome.code = 101)) ∧
      (∀ message, failureMessage? result = some message →
        (Arrives surroundings.errors (Console.failureText (failureHeading json) message) →
          outcome.code = 1 ∧
            outcome.errors = Utf8.encode (Console.failureText (failureHeading json) message)) ∧
        (¬ Arrives surroundings.errors (Console.failureText (failureHeading json) message) →
          outcome.code = 101)) ∧
      ((recordBuild built project (buildRecord surroundings.clock result) surroundings.storing).1
          = .ok () → publishedCount result < UInt64.size →
        (¬ ReplacesDirectoryLink built project.stateFile →
          Reachable after.disk project.stateFile) ∧
        ∀ later arguments' verbose' path' config', later.output = none →
          read later.presetPath arguments' = .ok ⟨verbose', .status path' true⟩ →
          context after.disk later path' = .ok (project, config') →
            ((run after later arguments').1 = .success (line (Json.write
                (statusBehind project config' surroundings.clock result))) ∨
              (run after later arguments').1 = .success (line (Json.write
                (statusJson project config' empty)))) ∧
            (later.storing = {} →
              ((run after later arguments').1 = .success (line (Json.write
                  (statusBehind project config' surroundings.clock result))) ↔
                Reachable after.disk project.stateFile) ∧
              (Reachable after.disk project.stateFile →
                (run after later arguments').2.disk = after.disk)))) ∧
    ∀ (host' : Host) later arguments' verbose' path' json' project' config',
      read later.presetPath arguments' = .ok ⟨verbose', .status path' json'⟩ →
      context host'.disk later path' = .ok (project', config') →
        host'.disk.Grows (run host' later arguments').2.disk
          (Project.MadeForLock (lockFile project'.stateFile)) := by
  rw [run_build asked] at ran
  refine ⟨fun lost => ?_, fun arrives => ?_, ?_⟩
  · have lost' := runBuild_of_lost discovered lost
    rw [ran] at lost'
    exact lost'
  · rw [runBuild_eq discovered arrives builds] at ran
    obtain ⟨told, sameHost⟩ := Prod.mk.inj ran
    refine ⟨?_, ?_, ?_⟩
    · rintro report rfl
      exact ⟨fun canTell => told.symm.trans (tellBuild_ok canTell),
        fun cannotTell => tellBuild_ok_of_not cannotTell told⟩
    · intro message said
      cases result with
      | ok report => cases said
      | error error =>
        cases said
        rw [tellBuild, opened] at told
        refine ⟨fun arrives' => ?_, fun lost => ?_⟩
        · rw [Console.fail_of_arrives arrives'] at told
          exact told ▸ ⟨rfl, rfl⟩
        · exact told ▸ Console.fail_of_lost lost
    · -- The record is stored before the report is told, so the host is the one that it leaves.
      intro isStored countable
      have stored : recordBuild built project (buildRecord surroundings.clock result)
          surroundings.storing = (.ok (), after) := Prod.ext isStored sameHost
      refine ⟨reachable_of_update (update_of_recordBuild stored), ?_⟩
      intro later arguments' verbose' path' config' free asked' discovered'
      rw [run_status asked']
      exact runStatus_of_stored stored countable free discovered'
  · intro host' later arguments' verbose' path' json' project' config' asked' discovered'
    rw [run_status asked']
    exact runStatus_grows discovered'

/-- What is given besides the words of a command line: clocks that stand still. -/
def standstill : Surroundings where
  directory := []
  presetPath := none
  clock := {
    startedAt := ⟨⟨2026, 7, 13, by decide, by decide, by decide⟩,
      ⟨4, 5, 6, 7, by decide, by decide, by decide, by decide⟩⟩
    finishedAt := ⟨⟨2026, 7, 13, by decide, by decide, by decide⟩,
      ⟨4, 5, 6, 7, by decide, by decide, by decide, by decide⟩⟩
    elapsedMs := 0 }

/-- The pages of a site, one of them in the place of the admin interface, and its configuration. -/
def brokenPages : Disk :=
  ((Disk.empty.put ["sitecraft.toml".toList] (.file [])).put ["templates".toList] .directory).put
    ["templates".toList, "admin".toList] .directory

/-- What the build of such a site comes to. -/
def adminReserved : Except SiteError BuildReport :=
  .error (.reservedPath ["templates".toList, "admin".toList])

/-- The site with a state file that cannot be read. -/
def brokenSite : Host where
  disk := (((brokenPages.put [".sitecraft".toList] .directory).put
    [".sitecraft".toList, "build.lock".toList] (.file [])).put
    [".sitecraft".toList, "state.lock".toList] (.file [])).put
    [".sitecraft".toList, "state.json".toList] (.file [0xff])

theorem read_build :
    read standstill.presetPath ["build".toList] = .ok ⟨false, .build none false⟩ := by decide

theorem read_status : read standstill.presetPath ["status".toList, "--json".toList]
    = .ok ⟨false, .status none true⟩ := by decide

theorem brokenSite_builds : Project.buildLocked brokenSite ⟨[]⟩
    = (adminReserved, { brokenSite with issued := 1 }) := by cbv

theorem brokenSite_accessible :
    Accessible { brokenSite with issued := 1 } (Project.stateFile ⟨[]⟩) := by
  refine ⟨List.cons_ne_nil _ _, by cbv, [".sitecraft".toList, "state.lock".toList], by cbv, ?_⟩
  exact List.forall_mem_nil _

theorem brokenSite_unreadable :
    brokenSite.disk.readBytes (Project.stateFile ⟨[]⟩) = .ok [0xff] := by cbv

/-- The record of the build goes into the state file, and the project is found again behind it. -/
theorem brokenSite_stored : ∃ after,
    recordBuild { brokenSite with issued := 1 } ⟨[]⟩ (buildRecord standstill.clock adminReserved)
      = (.ok (), after) ∧ context after.disk standstill none = .ok (⟨[]⟩, {}) := by
  obtain ⟨after, stored, _⟩ :=
    store_over_file brokenSite_accessible brokenSite_unreadable fun disk =>
    { (readFile disk (Project.stateFile ⟨[]⟩)).toOption.getD empty with
      build := some (buildRecord standstill.clock adminReserved) }
  obtain ⟨_, place, _, _, found, _, isAfter, _⟩ := replaced_of_update stored
  rw [brokenSite_accessible.lockedDisk_eq] at found isAfter
  have here : Disk.placeOf brokenSite.disk (Project.stateFile ⟨[]⟩)
      = .ok (Project.stateFile ⟨[]⟩) := by cbv
  have atState : place = Project.stateFile ⟨[]⟩ := Except.ok.inj (found.symm.trans here)
  refine ⟨after, stored, ?_⟩
  rw [isAfter, atState]
  generalize Utf8.encode _ = bytes
  cbv

theorem brokenSite_build_is_reported :
    ∃ outcome after, run brokenSite standstill ["build".toList] = (outcome, after) ∧
      outcome.code = 1 ∧
      (run after standstill ["status".toList, "--json".toList]).1
        = .success (line (Json.write (statusBehind ⟨[]⟩ {} standstill.clock adminReserved))) ∧
      (run after standstill ["status".toList, "--json".toList]).2.disk = after.disk := by
  have discovered : context brokenSite.disk standstill none = .ok (⟨[]⟩, {}) := by cbv
  obtain ⟨after, stored, discovered'⟩ := brokenSite_stored
  obtain ⟨outcome, ran⟩ :
      ∃ outcome, run brokenSite standstill ["build".toList] = (outcome, after) := by
    rw [run_build read_build, runBuild_eq discovered (arrives_none _) brokenSite_builds]
    exact ⟨_, congrArg (Prod.mk _) (congrArg Prod.snd stored)⟩
  obtain ⟨_, takesPlace, _⟩ := build_is_reported read_build discovered brokenSite_builds ran
  obtain ⟨_, fails, reported⟩ := takesPlace (arrives_none _)
  obtain ⟨code, _⟩ := (fails _ rfl).1 (arrives_none _)
  obtain ⟨reachable, follows⟩ := reported (congrArg Prod.fst stored) (by decide)
  have harmless :=
    (not_replacesDirectoryLink_of_read [] brokenSite_accessible brokenSite_unreadable).1
  obtain ⟨_, untroubled⟩ := follows standstill _ _ _ _ rfl read_status discovered'
  obtain ⟨printed, unchanged⟩ := untroubled rfl
  exact ⟨outcome, after, ran, code, printed.2 (reachable harmless), unchanged (reachable harmless)⟩

/-- The site with its directory of records behind a link, which stands in the place of the state
file and leads back. -/
def entwinedSite : Host where
  disk := (((brokenPages.put [".sitecraft".toList] (.link "state.json".toList)).put
    ["state.json".toList] (.link ".".toList)).put ["build.lock".toList] (.file [])).put
    ["state.lock".toList] (.file [])

/-- The record takes the place of the link, and with it the way to the state file is gone. -/
theorem entwinedSite_stored : ∃ after,
    recordBuild { entwinedSite with issued := 1 } ⟨[]⟩ (buildRecord standstill.clock adminReserved)
      = (.ok (), after) ∧ context after.disk standstill none = .ok (⟨[]⟩, {}) ∧
    ¬ Reachable after.disk (Project.stateFile ⟨[]⟩) := by
  have accessible : Accessible { entwinedSite with issued := 1 } (Project.stateFile ⟨[]⟩) := by
    refine ⟨List.cons_ne_nil _ _, by cbv, ["state.lock".toList], by cbv, ?_⟩
    exact List.forall_mem_nil _
  have replacing : ∀ bytes, entwinedSite.disk.replaceFile (Project.stateFile ⟨[]⟩) bytes
      = .ok (entwinedSite.disk.put ["state.json".toList] (.file bytes)) := by
    intro bytes
    cbv
  have stays : ∀ bytes, Disk.exists? (entwinedSite.disk.put ["state.json".toList] (.file bytes))
      (Project.stateFile ⟨[]⟩).parent = true := by
    intro bytes
    cbv
  rw [recordBuild_eq]
  obtain ⟨after, stored, isAfter⟩ := update_of_accessible accessible (replacing _) (stays _)
  refine ⟨after, stored, ?_⟩
  rw [isAfter]
  generalize Utf8.encode _ = bytes
  have noRoom : (entwinedSite.disk.put ["state.json".toList] (.file bytes)).isDirectory
      (Project.stateFile ⟨[]⟩).parent = false := by cbv
  refine ⟨by cbv, ?_⟩
  rintro ⟨room, _⟩
  rw [noRoom] at room
  cases room

/-- A site without pages. -/
def quietSite : Host where
  disk := (Disk.empty.put ["sitecraft.toml".toList] (.file [])).put ["templates".toList] .directory

/-- Nobody reads what is printed. -/
def unheard : Surroundings := { standstill with output := some (0, .brokenPipe) }

theorem arrives_unopened (room : Disk.Room) (json : Bool) :
    Arrives room (buildOpening project config false json) := fun _ _ _ => Nat.zero_le _

/-- A build that succeeds fails to say so, and where the record takes the place of the link that
leads to it, nothing is known of the build. -/
theorem reports_can_mislead :
    ((∃ built, Project.buildLocked quietSite ⟨[]⟩ = (.ok ⟨[]⟩, built)) ∧
      (run quietSite unheard ["build".toList]).1.code = 1) ∧
    ∃ outcome after built, run entwinedSite standstill ["build".toList] = (outcome, after) ∧
      Project.buildLocked entwinedSite ⟨[]⟩ = (adminReserved, built) ∧
      recordBuild built ⟨[]⟩ (buildRecord standstill.clock adminReserved) = (.ok (), after) ∧
      (run after standstill ["status".toList, "--json".toList]).1
        = .success (line (Json.write (statusJson ⟨[]⟩ {} empty))) ∧
      line (Json.write (statusJson ⟨[]⟩ {} empty))
        ≠ line (Json.write (statusBehind ⟨[]⟩ {} standstill.clock adminReserved)) := by
  constructor
  · obtain ⟨built, builds⟩ : ∃ built, Project.buildLocked quietSite ⟨[]⟩ = (.ok ⟨[]⟩, built) :=
      ⟨_, Prod.ext (by cbv) rfl⟩
    have discovered : context quietSite.disk unheard none = .ok (⟨[]⟩, {}) := by cbv
    have asked : read unheard.presetPath ["build".toList] = .ok ⟨false, .build none false⟩ := by
      decide
    refine ⟨⟨built, builds⟩, ?_⟩
    rw [run_build asked, runBuild_eq discovered (arrives_unopened _ _) builds]
    rfl
  · have discovered : context entwinedSite.disk standstill none = .ok (⟨[]⟩, {}) := by cbv
    have builds : Project.buildLocked entwinedSite ⟨[]⟩
        = (adminReserved, { entwinedSite with issued := 1 }) := by cbv
    obtain ⟨after, stored, discovered', unreachable⟩ := entwinedSite_stored
    obtain ⟨outcome, ran⟩ :
        ∃ outcome, run entwinedSite standstill ["build".toList] = (outcome, after) := by
      rw [run_build read_build, runBuild_eq discovered (arrives_none _) builds]
      exact ⟨_, congrArg (Prod.mk _) (congrArg Prod.snd stored)⟩
    refine ⟨outcome, after, _, ran, builds, stored, ?_, fun same => ?_⟩
    · have nothing := (loadOrEmpty_of_recordBuild stored).2 unreachable
      rw [run_status read_status, runStatus_json discovered' rfl]
      exact congrArg (fun state => Outcome.success (line (Json.write (statusJson ⟨[]⟩ {} state))))
        nothing
    · rw [← statusJson_recorded standstill.clock (by decide)] at same
      cases build_isSome_of_printed_eq same

end CommandLine

end StaticSite
