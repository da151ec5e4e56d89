import StaticSite.Disk
import StaticSite.Fault

/-!
# Errors of compiling a page
-/

namespace StaticSite

/-- Why a page cannot be compiled. -/
inductive CompileError where
  /-- A directive names a target outside the project. -/
  | pathEscape (path : Text)
  | missingInclude (path : Text) (fault : Fault)
  | missingLayout (path : Text) (fault : Fault)
  /-- A directive would go deeper than the limit. -/
  | circularReference (path : Text) (limit : Nat)
  | projectRoot (root : Path) (fault : Fault)
  deriving DecidableEq, Repr

namespace CompileError

/-- The wording of the error. -/
def message : CompileError → Text
  | pathEscape path =>
      "path '".toList ++ path ++ "' resolves outside the project root".toList
  | missingInclude path fault =>
      "failed to read include '".toList ++ path ++ "': ".toList ++ fault.message
  | missingLayout path fault =>
      "failed to read layout '".toList ++ path ++ "': ".toList ++ fault.message
  | circularReference path limit =>
      "resolution depth limit of ".toList ++ Text.ofNat limit ++ " exceeded at '".toList ++ path
        ++ "' (circular include or layout?)".toList
  | projectRoot root fault =>
      "failed to resolve project root '".toList ++ root.text ++ "': ".toList ++ fault.message

end CompileError

end StaticSite
