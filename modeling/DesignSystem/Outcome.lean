import DesignSystem.Disk.Fault
import DesignSystem.Failure
import DesignSystem.Text.Utf8

/-! # Outcomes of operations

An operation gives a value, reports a failure, or stops on a condition that none of its failures
describe.

* `Abort`: the conditions on which an operation stops, and their messages.
* `Outcome`: how an operation ends.
-/

namespace DesignSystem
set_option autoImplicit false

/-- Why an operation stops without a value and without a failure. -/
inductive Abort where
  | number (fault : NumberFault)
  /-- A word outside a closed vocabulary. -/
  | unknownWord (word vocabulary : String)
  /-- No word where one of a closed vocabulary is needed. -/
  | noWord (vocabulary : String)
  | nulInPath
  /-- No path where one is needed. -/
  | noPath
  | disk (error : DiskError)
  /-- A text without bytes where bytes are needed. -/
  | unencodable (fault : Utf8.Unencodable)
  /-- A value of another type where a text is needed. -/
  | notText (typeName : String)
  /-- A document of another type where a contract is needed. -/
  | notContract (typeName : String)
  deriving DecidableEq

def Abort.message : Abort → String
  | number fault => fault.message
  | unknownWord word vocabulary => s!"{quoted word} is not a valid {vocabulary}"
  | noWord vocabulary => s!"[] is not a valid {vocabulary}"
  | nulInPath => "embedded null byte"
  | noPath => "expected str, bytes or os.PathLike object, not list"
  | disk error => error.message
  | unencodable fault => fault.message
  | notText typeName => s!"'{typeName}' object has no attribute 'replace'"
  | notContract typeName => s!"'{typeName}' object has no attribute 'props'"

/-- How an operation ends. -/
inductive Outcome (α : Type) where
  | ok (value : α)
  | failed (failure : Failure)
  | aborted (abort : Abort)

namespace Outcome

def bind {α β : Type} (outcome : Outcome α) (next : α → Outcome β) : Outcome β :=
  match outcome with
  | ok value => next value
  | failed failure => failed failure
  | aborted abort => aborted abort

instance : Monad Outcome where
  pure := ok
  bind := bind

/-- The outcome of a computation that can only stop. -/
def ofExcept {α : Type} : Except Abort α → Outcome α
  | .ok value => ok value
  | .error abort => aborted abort

def isOk {α : Type} : Outcome α → Bool
  | ok _ => true
  | _ => false

end Outcome

/-- The member of a vocabulary with a word; another word stops the operation. -/
def requireWord {α : Type} [Vocabulary α] (word : String) : Except Abort α :=
  match Vocabulary.member? word with
  | some value => .ok value
  | none => .error (.unknownWord word (Vocabulary.name α))

/-- The member of a vocabulary that has to be there. -/
def requireMember {α : Type} [Vocabulary α] : Option α → Except Abort α
  | some value => .ok value
  | none => .error (.noWord (Vocabulary.name α))

end DesignSystem
