import AnnotatedShader.Batch.Options
import AnnotatedShader.CommandLine.Argument
import AnnotatedShader.Number.Freeform

set_option autoImplicit false

/-!
# Requests

A command line asks for files to be compiled under options, or for help or the version.  The first
stretch of arguments that are no flags names the inputs; what a later stretch holds belongs to
nothing.  Flags take effect from left to right, those of one argument only after all of it has been
understood.

A value that is attached to a flag may be the mark that ends the flags.  It is no value even there:
the flag has been given, and given nothing.

`Cluster` is what one argument holds: several letters behind one dash are several flags, and the
last of them may want the next argument as its value.  `Progress` is the state between two
arguments.  Arguments that belong to nothing are complained about in the end only, when all the
others have been understood.
-/

namespace AnnotatedShader.CommandLine

/-- What a command line asks for. -/
structure Request where
  inputs : List String
  outputDirectory : Option String
  /-- how many files may be worked on at a time, if a number is given -/
  jobs : Option Int
  verbose : Bool
  options : Options
  deriving DecidableEq, Repr, Inhabited

/-- Why a command line asks for no compilation. -/
inductive Stop where
  | help
  | version
  | misused (e : UsageError)
  deriving DecidableEq, Repr, Inhabited

namespace Request

/-- The request of an empty command line. -/
def empty : Request := ⟨[], none, some 1, false, .default⟩

/-- The clients that validation knows. -/
def clients : List String := ["opengl", "vulkan"]

/-- The integer that a flag is given. -/
def integerFor (f : Flag) : Option String → Except Stop (Option Int)
  | none => .ok none
  | some value =>
    match Number.readFreeform? value with
    | some n => .ok (some n)
    | none => .error (.misused (.notAnInteger f value))

/-- The client of a name; no name is the client that has none. -/
def clientOf : Option String → Except Stop String
  | none => .ok ""
  | some value =>
    if clients.contains value then .ok value
    else .error (.misused (.notAChoice .client value clients))

/-- Lets a flag take effect with the value that it is given. -/
def apply (r : Request) : Flag × Option String → Except Stop Request
  | (.help, _) => .error .help
  | (.version, _) => .error .version
  | (.outputDirectory, value) => .ok { r with outputDirectory := value }
  | (.noReflection, _) => .ok { r with options := { r.options with emitReflection := false } }
  | (.validate, _) => .ok { r with options := { r.options with validate := true } }
  | (.client, value) => do
    let client ← clientOf value
    .ok { r with options :=
      { r.options with environment := { r.options.environment with client } } }
  | (.glslVersion, value) => do
    let glslVersion ← integerFor .glslVersion value
    .ok { r with options := { r.options with glslVersion } }
  | (.noExplicitBindings, _) =>
    .ok { r with options := { r.options with explicitBindings := false } }
  | (.perFileBindings, _) => .ok { r with options := { r.options with programBindings := false } }
  | (.jobs, value) => do
    let jobs ← integerFor .jobs value
    .ok { r with jobs }
  | (.verbose, _) => .ok { r with verbose := true }

end Request

/-! ## Flags of one argument -/

/-- What an argument holds: flags with what they are given, and perhaps a last flag that wants the
next argument as its value. -/
structure Cluster where
  flags : List (Flag × Option String)
  wanting : Option Flag
  deriving DecidableEq, Repr, Inhabited

namespace Cluster

/-- What a text gives a flag: the mark that ends the flags gives nothing. -/
def given (value : String) : Option String := if value = "--" then none else some value

/-- A flag that nothing is attached to. -/
def bare (f : Flag) : Cluster := if f.takesValue then ⟨[], some f⟩ else ⟨[(f, none)], none⟩

/-- A flag with the value attached to it. -/
def attached (f : Flag) (value : String) : Except UsageError Cluster :=
  if f.takesValue then .ok ⟨[(f, given value)], none⟩ else .error (.valueRefused f value)

/-- A cluster behind a flag. -/
def behind (f : Flag) (c : Cluster) : Cluster := { c with flags := (f, none) :: c.flags }

/-- A short flag with the text attached to it: its value, or the letters of more flags, the last of
which may have its value attached at once. -/
def ofText : Flag → List Char → Except UsageError Cluster
  | f, [] => attached f ""
  | f, c :: text =>
    if f.takesValue then attached f (String.ofList (c :: text))
    else
      match Flag.ofLetter? c, text with
      | none, _ => .error (.valueRefused f (String.ofList (c :: text)))
      | some next, [] => .ok (behind f (bare next))
      | some next, d :: text => (ofText next (d :: text)).map (behind f)

end Cluster

/-! ## All arguments -/

/-- A request under construction: whether its inputs are complete, and what belongs to nothing. -/
structure Progress where
  request : Request
  closed : Bool
  surplus : List String
  deriving DecidableEq, Repr, Inhabited

namespace Progress

/-- Nothing has been read. -/
def start : Progress := ⟨.empty, false, []⟩

/-- Takes an argument that is no flag. -/
def plain (p : Progress) (text : String) : Progress :=
  if p.closed then { p with surplus := p.surplus ++ [text] }
  else { p with request := { p.request with inputs := p.request.inputs ++ [text] } }

/-- Takes the end of the flags.  It belongs to the inputs, unless they are complete. -/
def endOfFlags (p : Progress) : Progress :=
  if p.closed then { p with surplus := p.surplus ++ ["--"] } else p

/-- Takes a flag, behind which the inputs are complete if there are any. -/
def close (p : Progress) : Progress :=
  { p with closed := p.closed || !p.request.inputs.isEmpty }

/-- Takes flags. -/
def flags (p : Progress) (fs : List (Flag × Option String)) : Except Stop Progress := do
  let request ← fs.foldlM Request.apply p.request
  .ok { p.close with request }

/-- Takes a flag that there is not. -/
def unknown (p : Progress) (text : String) : Progress :=
  { p.close with surplus := p.surplus ++ [text] }

/-- An error in a command line as a reason to stop. -/
def checked {α : Type} : Except UsageError α → Except Stop α
  | .ok a => .ok a
  | .error e => .error (.misused e)

/-- The cluster of flags that an argument is, if it is one. -/
def cluster? : Argument → Option (Except UsageError Cluster)
  | .long f none | .short f none => some (.ok (Cluster.bare f))
  | .long f (some value) => some (Cluster.attached f value)
  | .short f (some text) => some (Cluster.ofText f text)
  | _ => none

/-- Takes arguments from left to right. -/
def takeAll : Progress → List Argument → Except Stop Progress
  | p, [] => .ok p
  | p, .plain text :: rest => takeAll (p.plain text) rest
  | p, .endOfFlags :: rest => takeAll p.endOfFlags rest
  | p, .unknown text :: rest => takeAll (p.unknown text) rest
  | p, a :: rest =>
    match cluster? a with
    | none => takeAll p rest
    | some cluster => do
      let c ← checked cluster
      match c.wanting, rest with
      | none, rest => do
        let p ← p.flags c.flags
        takeAll p rest
      | some f, .plain value :: rest => do
        let p ← p.flags (c.flags ++ [(f, some value)])
        takeAll p rest
      | some f, _ => .error (.misused (.valueMissing f))

end Progress

/-- What a command line asks for. -/
def Request.ofArguments (arguments : List String) : Except Stop Request := do
  let read ← Progress.checked (Argument.readAll arguments)
  let p ← Progress.start.takeAll read
  if p.surplus.isEmpty then .ok p.request else .error (.misused (.unrecognized p.surplus))

end AnnotatedShader.CommandLine
