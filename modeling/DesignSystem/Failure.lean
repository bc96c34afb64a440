import DesignSystem.Issue
import DesignSystem.Text.Quoted
import DesignSystem.Vocabulary

/-! # Failures of workspace operations

* `FailureCode`: the closed set of kinds.
* `Failure`: a kind with a message, the path concerned and details.
-/

namespace DesignSystem
set_option autoImplicit false

inductive FailureCode where
  | workspaceNotFound
  | workspaceInvalidStructure
  | contractNotFound
  | contractInvalid
  | tokenFileNotFound
  | tokenFileInvalid
  | tokenRefNotFound
  | systemManifestNotFound
  | systemManifestInvalid
  | validationFailed
  | compileError
  deriving DecidableEq, Repr

instance : Vocabulary FailureCode where
  name := "ErrorCode"
  members := [.workspaceNotFound, .workspaceInvalidStructure, .contractNotFound, .contractInvalid,
    .tokenFileNotFound, .tokenFileInvalid, .tokenRefNotFound, .systemManifestNotFound,
    .systemManifestInvalid, .validationFailed, .compileError]
  word
    | .workspaceNotFound => "WORKSPACE_NOT_FOUND"
    | .workspaceInvalidStructure => "WORKSPACE_INVALID_STRUCTURE"
    | .contractNotFound => "CONTRACT_NOT_FOUND"
    | .contractInvalid => "CONTRACT_INVALID"
    | .tokenFileNotFound => "TOKEN_FILE_NOT_FOUND"
    | .tokenFileInvalid => "TOKEN_FILE_INVALID"
    | .tokenRefNotFound => "TOKEN_REF_NOT_FOUND"
    | .systemManifestNotFound => "SYSTEM_MANIFEST_NOT_FOUND"
    | .systemManifestInvalid => "SYSTEM_MANIFEST_INVALID"
    | .validationFailed => "VALIDATION_FAILED"
    | .compileError => "COMPILE_ERROR"

namespace FailureCode

def word (code : FailureCode) : String := Vocabulary.word code

/-- Whether the document or workspace asked for is absent. -/
def isNotFound : FailureCode → Bool
  | workspaceNotFound | contractNotFound | tokenFileNotFound | systemManifestNotFound => true
  | _ => false

end FailureCode

structure Failure where
  code : FailureCode
  message : Text
  path : Option String
  details : Fields

namespace Failure

/-- The name that failures go by in transports. -/
def name : String := "WorkspaceError"

/-- The failure on one line, its message in quotes. -/
def summary (failure : Failure) : String :=
  s!"{name}({failure.code.word}, {quoted failure.message})"

end Failure
end DesignSystem
