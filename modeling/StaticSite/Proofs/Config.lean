import StaticSite.Config
import StaticSite.Proofs.Toml.Lines

/-!
# Configurations that are read back

What is written of a configuration is read back as that configuration, whatever the site is called.
-/

namespace StaticSite.Config

open Toml

variable {rest : Text} {fuel : Nat} {config : Config}

/-! ## The two tables -/

/-- The rows of the table `site`. -/
def siteRows : Option Text → Rows
  | some name => [("name".toList, .string name)]
  | none => []

/-- The rows of the table `build`. -/
def buildRows (options : BuildOptions) : Rows :=
  [("max_depth".toList, .integer options.maxDepth),
   ("admin_script".toList, .boolean options.stamps.adminScript),
   ("source_path_attr".toList, .boolean options.stamps.sourcePath)]

/-- The rows of the whole document. -/
def rows (config : Config) : Rows :=
  [("site".toList, .table .header (siteRows config.siteName)),
   ("build".toList, .table .header (buildRows config.build))]

theorem readStatements?_siteHeader : readStatements? (fuel + 1) ⟨[], []⟩ ("[site]\n".toList ++ rest)
    = readStatements? fuel ⟨[("site".toList, .table .header [])], ["site".toList]⟩ rest := rfl

theorem readStatements?_name (name : Text) :
    readStatements? (fuel + 1) ⟨[("site".toList, .table .header [])], ["site".toList]⟩
        ("name".toList ++ " = ".toList ++ (quote name ++ '\n' :: rest))
      = readStatements? fuel ⟨[("site".toList, .table .header (siteRows (some name)))],
          ["site".toList]⟩ rest :=
  readStatements?_pair (by decide) rfl (writes_quote name) rfl

theorem readStatements?_buildHeader (inner : Rows) :
    readStatements? (fuel + 2) ⟨[("site".toList, .table .header inner)], ["site".toList]⟩
        ("\n[build]\n".toList ++ rest)
      = readStatements? fuel ⟨[("site".toList, .table .header inner),
          ("build".toList, .table .header [])], ["build".toList]⟩ rest := rfl

theorem writes_writeBool (value : Bool) : Writes (writeBool value) (.boolean value) := by
  constructor
  · cases value <;>
      · rintro _ ⟨⟩
        rfl
  · intro rest
    cases value <;> rfl

/-- The pairs of the table `build`. -/
def writeBuild (options : BuildOptions) : Text :=
  "max_depth".toList ++ " = ".toList ++ (Text.ofNat options.maxDepth ++ '\n' ::
    ("admin_script".toList ++ " = ".toList ++ (writeBool options.stamps.adminScript ++ '\n' ::
      ("source_path_attr".toList ++ " = ".toList
        ++ (writeBool options.stamps.sourcePath ++ ['\n'])))))

theorem readStatements?_build {options : BuildOptions} (small : options.maxDepth < 2 ^ 63)
    (inner : Rows) :
    readStatements? (fuel + 4) ⟨[("site".toList, .table .header inner),
          ("build".toList, .table .header [])], ["build".toList]⟩ (writeBuild options)
      = some [("site".toList, .table .header inner),
          ("build".toList, .table .header (buildRows options))] := by
  refine Eq.trans (readStatements?_pair (by decide) rfl (writes_ofNat small) rfl) ?_
  refine Eq.trans (readStatements?_pair (by decide) rfl (writes_writeBool _) rfl) ?_
  refine Eq.trans (readStatements?_pair (by decide) rfl (writes_writeBool _) rfl) ?_
  rfl

/-- The pair of the table `site`, if there is one. -/
def writeSite : Option Text → Text
  | some name => "name".toList ++ " = ".toList ++ (quote name ++ ['\n'])
  | none => []

theorem write_eq (config : Config) : config.write = "[site]\n".toList
    ++ (writeSite config.siteName ++ ("\n[build]\n".toList ++ writeBuild config.build)) := by
  have name : "name = ".toList = "name".toList ++ " = ".toList := rfl
  have depth : "\n[build]\nmax_depth = ".toList
      = "\n[build]\n".toList ++ ("max_depth".toList ++ " = ".toList) := rfl
  have script : "\nadmin_script = ".toList = '\n' :: ("admin_script".toList ++ " = ".toList) := rfl
  have path : "\nsource_path_attr = ".toList
      = '\n' :: ("source_path_attr".toList ++ " = ".toList) := rfl
  unfold write writeSite writeBuild
  rw [name, depth, script, path]
  cases config.siteName <;>
    simp only [List.append_assoc, List.cons_append, List.nil_append]

/-! ## The document -/

theorem readDocument?_write (small : config.build.maxDepth < 2 ^ 63) :
    readDocument? config.write = some (rows config) := by
  have noMark : config.write.head? ≠ some '\uFEFF' := by
    rw [write_eq]
    simp
  obtain ⟨fuel, long⟩ : ∃ fuel, config.write.length + 1 = fuel + 8 := by
    refine ⟨config.write.length - 7, ?_⟩
    rw [write_eq, List.length_append]
    have : "[site]\n".toList.length = 7 := rfl
    omega
  rw [readDocument?, if_neg noMark, long, write_eq, readStatements?_siteHeader]
  obtain ⟨name, options⟩ := config
  cases name with
  | none =>
    rw [writeSite, List.nil_append, readStatements?_buildHeader]
    exact readStatements?_build small []
  | some name =>
    have whole : writeSite (some name) ++ ("\n[build]\n".toList ++ writeBuild options)
        = "name".toList ++ " = ".toList
          ++ (quote name ++ '\n' :: ("\n[build]\n".toList ++ writeBuild options)) := by
      simp only [writeSite, List.append_assoc, List.cons_append, List.nil_append]
    rw [whole, readStatements?_name, readStatements?_buildHeader]
    exact readStatements?_build small _

/-- A configuration is read back from its document. -/
theorem read?_write (small : config.build.maxDepth < 2 ^ 63) :
    read? config.write = some config := by
  obtain ⟨name, ⟨depth, ⟨path, script⟩⟩⟩ := config
  have depth' : natural? (.integer depth) = some depth := by simp [natural?]
  rw [read?, readDocument?_write small]
  cases name <;>
    · change (do
        some ({
          siteName := _
          build := {
            maxDepth := ← natural? (.integer depth)
            stamps := ⟨path, script⟩ } } : Config)) = _
      rw [depth']
      rfl

end StaticSite.Config
