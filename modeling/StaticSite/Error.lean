import StaticSite.Lock
import StaticSite.Template.Error

/-!
# Errors of project operations

Each constructor is one cause.  The wording starts with a code in capitals.
-/

namespace StaticSite

/-- Why the recorded state could not be read. -/
inductive StateReadFault where
  | lock (error : LockError)
  | read (fault : Fault)
  | parse
  deriving DecidableEq, Repr

/-- Why the recorded state could not be written. -/
inductive StateWriteFault where
  | noParent
  | createParent (fault : Fault)
  | lock (error : LockError)
  | createTemporary (fault : Fault)
  | writeTemporary (fault : Fault)
  | syncTemporary (fault : Fault)
  | persist (fault : Fault)
  /-- The new file is in its place, but its directory cannot be opened any more or written out. -/
  | syncParent (fault : Fault)
  deriving DecidableEq, Repr

/-- Why an operation on a project failed. -/
inductive SiteError where
  | projectNotFound
  | projectExists (path : Text)
  | invalidName (fault : NameFault)
  | reservedPath (path : Path)
  | fileWalk (path : Path) (fault : Fault)
  | templateRead (file : Path) (fault : Fault)
  | compileFailed (file : Path) (error : CompileError)
  | compiler (error : CompileError)
  | buildWrite (path : Path) (fault : Fault)
  | configInvalid (path : Path)
  /-- The configured depth limit is zero. -/
  | zeroMaxDepth
  | stateRead (fault : StateReadFault)
  | stateWrite (fault : StateWriteFault)
  | unknownSchema (version : Text)
  | notEditable (path : Text)
  | indexOutOfRange (index count : Nat)
  | notInclude (path : Text) (index : Nat)
  | lock (error : LockError)
  | io (fault : Fault)
  deriving DecidableEq, Repr

/-- The wording of the fault. -/
def StateReadFault.message : StateReadFault → Text
  | lock error => "Failed to acquire shared lock: ".toList ++ error.message
  | read fault => "Failed to read: ".toList ++ fault.message
  | parse => "Failed to parse".toList

/-- The wording of the fault. -/
def StateWriteFault.message : StateWriteFault → Text
  | noParent => "State path has no parent directory".toList
  | createParent fault => "Failed to create parent dir: ".toList ++ fault.message
  | lock error => "Failed to acquire lock: ".toList ++ error.message
  | createTemporary fault => "Failed to create temp file: ".toList ++ fault.message
  | writeTemporary fault => "Failed to write temp file: ".toList ++ fault.message
  | syncTemporary fault => "Failed to sync temp file: ".toList ++ fault.message
  | persist fault => "Failed to persist temp file: ".toList ++ fault.message
  | syncParent fault => "Failed to sync parent dir: ".toList ++ fault.message

/-- The wording of the error. -/
def SiteError.message : SiteError → Text
  | projectNotFound =>
      "PROJECT_NOT_FOUND: no templates/ directory in current or parent directories".toList
  | projectExists path =>
      "PROJECT_EXISTS: directory '".toList ++ path
        ++ "' already exists (use --force to overwrite)".toList
  | invalidName fault => "PROJECT_INVALID_NAME: ".toList ++ fault.message
  | reservedPath path =>
      "RESERVED_PATH: '".toList ++ path.text ++ "' is reserved for the admin interface".toList
  | fileWalk path fault =>
      "FILE_WALK: failed to walk templates: IO error for operation on ".toList ++ path.text
        ++ ": ".toList ++ fault.message
  | templateRead file fault =>
      "TEMPLATE_READ_FAILED: failed to read ".toList ++ file.text ++ ": ".toList ++ fault.message
  | compileFailed file error =>
      "COMPILE_FAILED: error compiling ".toList ++ file.text ++ ": ".toList ++ error.message
  | compiler error => "COMPILE_FAILED: ".toList ++ error.message
  | buildWrite path fault =>
      "BUILD_WRITE_FAILED: failed to write ".toList ++ path.text ++ ": ".toList ++ fault.message
  | configInvalid path => "CONFIG_INVALID: failed to parse ".toList ++ path.text
  | zeroMaxDepth => "CONFIG_INVALID_VALUE: build.max_depth: must be at least 1".toList
  | stateRead fault => "STATE_READ_ERROR: failed to read state.json: ".toList ++ fault.message
  | stateWrite fault => "STATE_WRITE_ERROR: failed to write state.json: ".toList ++ fault.message
  | unknownSchema version =>
      "STATE_INVALID_SCHEMA: unknown schema version '".toList ++ version ++ ['\'']
  | notEditable path =>
      "EDIT_INVALID_PATH: '".toList ++ path ++ "' is not an editable source file".toList
  | indexOutOfRange index count =>
      "EDIT_INVALID_INDEX: token index ".toList ++ Text.ofNat index
        ++ " out of range (file has ".toList ++ Text.ofNat count ++ " tokens)".toList
  | notInclude path index =>
      "EDIT_NOT_INCLUDE: token ".toList ++ Text.ofNat index ++ " in '".toList ++ path
        ++ "' is not an include directive".toList
  | lock error => "LOCK_FAILED: ".toList ++ error.message
  | io fault => "IO_ERROR: ".toList ++ fault.message

end StaticSite
