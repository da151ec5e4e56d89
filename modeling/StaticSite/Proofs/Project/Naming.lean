import StaticSite.Proofs.Disk.Replacing
import StaticSite.Proofs.Project.Creating

/-!
# Configurations on disk

A configuration that is written to a file is read from there as it was.  The one exception is a
depth limit that TOML has no integer for, which is refused.  A new project is thus found under the
name that it was given, whatever characters are in it.
-/

namespace StaticSite.Project

variable {disk after : Disk} {path parent : Path} {name text written : Text} {config : Config}
  {force : Bool} {trouble : Disk.WriteTrouble} {refused : CreateTrouble}

theorem readText_of_writeText (writing : disk.writeText path text trouble = (.ok (), after)) :
    after.readText path = .ok text :=
  Disk.readText_eq_ok.2 ⟨_, Disk.readBytes_of_writeBytes writing, Utf8.decode?_encode text⟩

/-- A configuration has a document exactly if its depth limit is an integer of TOML. -/
theorem document?_eq_some :
    config.document? = some text ↔ config.build.maxDepth < 2 ^ 63 ∧ text = config.write := by
  have fits : config.build.maxDepth ≤ 9223372036854775807 ↔ config.build.maxDepth < 2 ^ 63 := by
    omega
  unfold Config.document?
  rw [← fits]
  split
  · next small => rw [Option.some.injEq, eq_comm, and_iff_right small]
  · next large => exact iff_of_false (Option.some_ne_none text).symm fun kept => large kept.1

/-- The file of a document holds the configuration, if that one is valid. -/
theorem configOfFile_of_readText (written : config.document? = some text)
    (read : disk.readText path = .ok text) : configOfFile disk path
      = if config.build.maxDepth = 0 then .error .zeroMaxDepth else .ok config := by
  obtain ⟨small, rfl⟩ := document?_eq_some.1 written
  rw [configOfFile, read, Except.mapError_ok, Except.ok_bind, Config.read?_write small]

/-- A new project has the name that it was made with. -/
theorem name_of_create (isTree : disk.IsTree)
    (created : create disk parent name force refused = (.ok written, after)) :
    Project.name after ⟨newRoot parent name⟩ = .ok name := by
  rcases create_cases created with ⟨_, ⟨_, failed⟩, _⟩ | ⟨⟨named, short⟩, ready, readied, ends⟩
  · cases failed
  · rcases ends with ⟨⟨_, failed⟩, _⟩ | ⟨_, furnished⟩
    · cases failed
    · have isTree' := (makesRoom_of_create named short readied).isTree isTree
      obtain ⟨_, _, _, site⟩ := holdsSite_of_furnish isTree' named furnished
      rw [Project.name, site.config_eq]
      rfl

/-- Every configuration with a depth limit from 1 up to the greatest integer of TOML is read back
from the file that it is written to, and every new project has the name that it was made with. -/
theorem config_round_trip :
    (∀ config : Config, 1 ≤ config.build.maxDepth → config.build.maxDepth ≤ 2 ^ 63 - 1 →
      ∃ text, config.document? = some text ∧ ∀ disk path trouble after,
        Disk.writeText disk path text trouble = (.ok (), after) →
          configOfFile after path = .ok config) ∧
    ∀ disk parent name force refused written after, Disk.IsTree disk →
      create disk parent name force refused = (.ok written, after) →
      Project.name after ⟨newRoot parent name⟩ = .ok name := by
  constructor
  · intro config positive small
    have hasDocument : config.document? = some config.write :=
      document?_eq_some.2 ⟨by omega, rfl⟩
    refine ⟨_, hasDocument, fun disk path trouble after writing => ?_⟩
    rw [configOfFile_of_readText hasDocument (readText_of_writeText writing), if_neg (by omega)]
  · intro disk parent name force refused written after isTree created
    exact name_of_create isTree created

/-- A name that needs quoting in several ways. -/
def trickyName : Text := "\nit's \"\"\"a\\b\"\"\"\r\t".toList

theorem trickyName_round_trip :
    (∃ text after, (Config.forSite trickyName).document? = some text ∧
      Disk.empty.writeText [configName] text = (.ok (), after) ∧
      configOfFile after [configName] = .ok (Config.forSite trickyName)) ∧
    ∃ written after, create Disk.empty [] trickyName false = (.ok written, after) ∧
      Project.name after ⟨newRoot [] trickyName⟩ = .ok trickyName := by
  obtain ⟨reads, named⟩ := config_round_trip
  constructor
  · obtain ⟨text, hasDocument, again⟩ := reads (Config.forSite trickyName) (by decide) (by decide)
    have located : Disk.empty.writeTarget [configName] = .ok [configName] := by cbv
    have opening := Disk.openToWrite_eq_ok.2 ⟨located, .inl rfl, rfl⟩
    have written : (Disk.empty.writeText [configName] text).1 = .ok () := by
      simp only [Disk.writeText, Disk.writeBytes, opening]
      rfl
    have writing : Disk.empty.writeText [configName] text = (.ok (), _) := Prod.ext written rfl
    exact ⟨text, _, hasDocument, writing, again _ _ _ _ writing⟩
  · have isName : PathText.checkName trickyName = .ok () := by decide
    have split : splitName trickyName = (trickyName, .plain) := by decide
    have short : Disk.checkPathText (writtenPath [] trickyName) = .ok () := by decide
    have free : isTaken Disk.empty [trickyName] .plain = false := by cbv
    have found : Disk.empty.placeOf [trickyName] = .ok [trickyName] := by cbv
    have fits : ∀ text ∈ furniture (writtenPath [] trickyName),
        Disk.checkPathText text = .ok () := by decide
    obtain ⟨after, furnished⟩ : ∃ after, furnish Disk.empty [trickyName] .plain
        (writtenPath [] trickyName) trickyName = .ok after :=
      ⟨_, furnish_eq_ok.2 ⟨by decide, _, found, rfl, fits, rfl⟩⟩
    have created : create Disk.empty [] trickyName false
        = (.ok (writtenPath [] trickyName), after) := by
      simp only [create, isName, split, short, List.nil_append, free, furnished,
        Bool.false_eq_true, if_false]
    exact ⟨_, after, created, named _ _ _ _ _ _ _ (by decide) created⟩

end StaticSite.Project
