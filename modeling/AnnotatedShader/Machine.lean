import AnnotatedShader.Failure
import AnnotatedShader.Files.Tree

set_option autoImplicit false

/-!
# Machines

A validator is a program of somebody else.  All that can be said of it here is what it is told and
what is made of its answer; the answer itself is up to the machine that it is run on.  A machine is
therefore a parameter wherever a program is run, and what a statement takes for granted of the
programs of a machine is a hypothesis of the statement.

A program is given arguments and files, and either it cannot be run at all or it ends with a code
and two texts.  `Machine.start` refuses arguments with null characters before the machine sees them.
On `Machine.bare` there are no programs but the two that only end.
-/

namespace AnnotatedShader

/-- How the run of a program ends. -/
inductive Ending where
  /-- it cannot be run -/
  | refused (reason : String)
  | ended (code : Int) (output errors : String)
  deriving DecidableEq, Repr, Inhabited

/-- What is outside: how a program of a name ends with arguments and files, each file a path and its
text.  Of files of one path the last counts. -/
structure Machine where
  /-- the directory where files are put for a program -/
  directory : String
  run : (name : String) → (arguments : List String) → (files : List (String × String)) → Ending

namespace Machine

/-- Whether a text holds a null character. -/
def holdsNull (text : String) : Bool := text.toList.contains '\x00'

/-- Runs a program, unless its name or an argument holds a null character. -/
def start (m : Machine) (name : String) (arguments : List String)
    (files : List (String × String)) : Except Failure Ending :=
  if (name :: arguments).any holdsNull then .error .nullCharacter
  else .ok (m.run name arguments files)

theorem holdsNull_append (front behind : String) :
    holdsNull (front ++ behind) = (holdsNull front || holdsNull behind) := by
  simp [holdsNull, List.contains_eq_mem]

/-- Whether there is an ending depends on the null characters alone. -/
theorem start_of_start {m : Machine} {name : String} {arguments arguments' : List String}
    (hsame : arguments'.any holdsNull = arguments.any holdsNull) {files : List (String × String)}
    {e : Ending} (h : m.start name arguments files = .ok e) (files' : List (String × String)) :
    m.start name arguments' files' = .ok (m.run name arguments' files') := by
  unfold start at h
  split at h
  · contradiction
  · rename_i hclean
    rw [start, List.any_cons, hsame, ← List.any_cons, if_neg hclean]

/-! ## The bare machine -/

/-- How a program ends that does nothing but succeed or fail. -/
def silentEnding? (name : String) : Option Ending :=
  if name = "true" then some (.ended 0 "" "") else if name = "false" then some (.ended 1 "" "")
  else none

/-- How many bytes an argument of a program may have. -/
def argumentLimit : Nat := 131071

/-- What is said of a name that leads to no program: it may lead to a directory or nowhere, or be
too long for either. -/
def absence (name : String) : String :=
  match FileTree.empty.locateText name with
  | .ok l =>
    if (FileTree.empty.node? l).isSome then "[Errno 13] Permission denied"
    else "[Errno 2] No such file or directory"
  | .error .tooLong => "[Errno 36] File name too long"
  | .error _ => "[Errno 2] No such file or directory"

/-- Why a program cannot be run, as its machine says it. -/
def refusal (reason name : String) : Ending := .refused (reason ++ ": " ++ Text.quoted name)

/-- The machine with no programs but those that only succeed or fail. -/
def bare : Machine where
  directory := "/tmp"
  run name arguments _ :=
    match silentEnding? name with
    | none => refusal (absence name) name
    | some e =>
      if arguments.any fun text => argumentLimit < text.utf8ByteSize then
        refusal "[Errno 7] Argument list too long" name
      else e

end Machine

end AnnotatedShader
