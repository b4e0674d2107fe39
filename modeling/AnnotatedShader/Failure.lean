import AnnotatedShader.Diagnostic
import AnnotatedShader.ShaderType

set_option autoImplicit false

/-!
# Failures

Most of what can be wrong with a file is a diagnostic of that file.  The other failures are none of
a file's own: a numeral with too many digits stops a whole batch, whether it is to be read or to be
written, members cannot be declared for a version of GLSL that is not given, no program is started
with a null character, and the rest tell of a caller that broke a promise.

Steps that may fail have their results in `Except Failure`.  `Failure.at_` is the usual way to
report something at a place of a file.
-/

namespace AnnotatedShader

/-- Why there is no result. -/
inductive Failure where
  /-- a fault in a file, which spares the other files -/
  | diagnosed (d : Diagnostic)
  /-- an integer literal with more digits than are read -/
  | numeralUnread
  /-- an integer with more digits than are written -/
  | numeralUnwritten
  /-- members to declare for a version that is not given -/
  | versionMissing
  /-- a null character in the name of a program or in what it is told -/
  | nullCharacter
  /-- a type that does not fit its place -/
  | misfit (m : Misfit)
  /-- an import cycle that no import of the file leads into -/
  | cycleWithoutUse
  /-- an import that nobody resolved -/
  | importUnresolved
  /-- a resource that got no slot -/
  | slotMissing (name : String)
  deriving DecidableEq, Repr, Inhabited

namespace Failure

/-- A fault at a position of a file. -/
def at_ (file : String) (position : Position) (fault : Fault) : Failure :=
  .diagnosed ⟨file, position, fault⟩

end Failure

end AnnotatedShader
