import AnnotatedShader.CommandLine.Flag
import AnnotatedShader.Text.Digit
import AnnotatedShader.Text.Quoted

set_option autoImplicit false

/-!
# Arguments

An argument is a word of the command line.  One that starts with a dash is a flag, unless it is the
dash alone, a negative number, or a text with a space that no flag fits.  A long flag may be
shortened as long as one flag alone fits, and `=` attaches a text to it.  To the letter of a short
flag a text is attached by `=` or at once.  After `--` nothing is a flag.

Here each argument is understood on its own, by `read`; what a text is attached to decides later
whether it is a value.  `UsageError` are the complaints, with their wordings.
-/

namespace AnnotatedShader.CommandLine

open AnnotatedShader.Text

/-- What is wrong with a command line. -/
inductive UsageError where
  | ambiguous (argument : String) (flags : List Flag)
  | valueMissing (f : Flag)
  | valueRefused (f : Flag) (value : String)
  | notAnInteger (f : Flag) (value : String)
  | notAChoice (f : Flag) (value : String) (choices : List String)
  | unrecognized (arguments : List String)
  deriving DecidableEq, Repr, Inhabited

/-- A message about a flag. -/
def Flag.complaint (f : Flag) (text : String) : String := "argument " ++ f.label ++ ": " ++ text

/-- The message for a wrong command line. -/
def UsageError.message : UsageError → String
  | .ambiguous argument flags =>
    "ambiguous option: " ++ argument ++ " could match " ++ ", ".intercalate (flags.map Flag.name)
  | .valueMissing f => f.complaint "expected one argument"
  | .valueRefused f value => f.complaint ("ignored explicit argument " ++ quoted value)
  | .notAnInteger f value => f.complaint ("invalid int value: " ++ quoted value)
  | .notAChoice f value choices =>
    f.complaint ("invalid choice: " ++ quoted value ++ " (choose from " ++
      ", ".intercalate (choices.map quoted) ++ ")")
  | .unrecognized arguments => "unrecognized arguments: " ++ " ".intercalate arguments

/-- An argument as it is understood on its own. -/
inductive Argument where
  /-- an input or a value -/
  | plain (text : String)
  /-- the mark behind which nothing is a flag -/
  | endOfFlags
  /-- a long flag with the text attached to it -/
  | long (f : Flag) (attached : Option String)
  /-- a short flag with the text attached to it -/
  | short (f : Flag) (attached : Option (List Char))
  /-- a flag that there is not -/
  | unknown (text : String)
  deriving DecidableEq, Repr, Inhabited

namespace Argument

/-- Whether a text consists of digits and holds one at least. -/
def isDigits (text : List Char) : Bool :=
  !text.isEmpty && text.all fun c => (decimalValue? c).isSome

/-- A text without a line feed at its end. -/
def dropFinalBreak (text : List Char) : List Char :=
  if text.getLast? = some '\n' then text.dropLast else text

/-- Whether what follows a dash makes it a negative number: digits, or digits behind a point with or
without digits in front.  A line feed may follow. -/
def isMagnitude (text : List Char) : Bool :=
  let text := dropFinalBreak text
  let whole := text.takeWhile fun c => (decimalValue? c).isSome
  match text.drop whole.length with
  | [] => isDigits text
  | '.' :: places => isDigits places
  | _ => false

/-- An argument with a dash in front that no flag fits. -/
def withoutFlag (text : List Char) : Argument :=
  if isMagnitude text.tail || text.contains ' ' then .plain (String.ofList text)
  else .unknown (String.ofList text)

/-- The name of a long flag, and the text that `=` attaches. -/
def splitAttached (text : List Char) : List Char × Option String :=
  let name := text.takeWhile (· != '=')
  match text.drop name.length with
  | [] => (name, none)
  | _ :: attached => (name, some (String.ofList attached))

/-- The text attached to the letter of a short flag. -/
def attachedToLetter : List Char → Option (List Char)
  | [] => none
  | '=' :: attached => some attached
  | attached => some attached

/-- Reads an argument that starts with two dashes. -/
def readLong (text : List Char) : Except UsageError Argument :=
  let (name, attached) := splitAttached text
  match Flag.ofName? (String.ofList name) with
  | some f => .ok (.long f attached)
  | none =>
    match Flag.startingWith name with
    | [] => .ok (withoutFlag text)
    | [f] => .ok (.long f attached)
    | fs => .error (.ambiguous (String.ofList text) fs)

/-- Reads an argument. -/
def read (text : String) : Except UsageError Argument :=
  match text.toList with
  | '-' :: '-' :: rest => readLong ('-' :: '-' :: rest)
  | '-' :: c :: tail =>
    match Flag.ofLetter? c with
    | some f => .ok (.short f (attachedToLetter tail))
    | none => .ok (withoutFlag ('-' :: c :: tail))
  | _ => .ok (.plain text)

/-- Reads arguments.  Behind the end of the flags they are what they are. -/
def readAll : List String → Except UsageError (List Argument)
  | [] => .ok []
  | text :: rest =>
    if text = "--" then .ok (.endOfFlags :: rest.map .plain)
    else do
      let a ← read text
      let others ← readAll rest
      .ok (a :: others)

end Argument

end AnnotatedShader.CommandLine
